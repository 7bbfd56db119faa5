import DisBackend.Proofs.Module.RoundTrip

/-!
# `Proofs.Module.Truncation` — files that were cut off

A reader that gets only the front of some bytes does there what it does with all of them, until it wants
a byte that is missing; and then it says so. `Steady` is that property, and every reader but the one of
the source path has it. So a file that was cut off is never taken for another module, unless it was cut
just before the source path, where nothing shows that something is missing.

## Contents

* `ReadError.isEnd` — errors that say that bytes are missing;
* `Steady` and its laws, `steady_operand`, `steady_text`, … — readers of bytes that were cut off;
* `Module.steady_front` — the whole file but the source path;
* `Module.decode_truncated` — what is read from the beginning of a file.
-/

namespace DisBackend

/-- The error says that bytes are missing. -/
def ReadError.isEnd : ReadError → Bool
  | .unexpectedEnd .. | .unterminatedString _ => true
  | _ => false

variable {α β : Type}

/-- **What `r` reads does not depend on bytes it does not take.** From the front of bytes that it reads
something from, it reads the same, or it says that bytes are missing. -/
def Steady (r : Reader α) : Prop :=
  ∀ (position : Nat) (front back : Bytes) (a : α) (c : Cursor), r ⟨position, front ++ back⟩ = .ok (a, c) →
    (∃ rest, r ⟨position, front⟩ = .ok (a, ⟨c.position, rest⟩) ∧ c.rest = rest ++ back) ∨
      ∃ e, r ⟨position, front⟩ = .error e ∧ e.isEnd

section Laws

variable {r : Reader α} {k : α → Reader β}

theorem steady_pure (a : α) : Steady (pure a : Reader α) := by
  intro position front back b c h
  cases h
  exact .inl ⟨front, rfl, rfl⟩

theorem steady_throw (e : ReadError) : Steady (throw e : Reader α) := by
  intro position front back a c h
  cases h

theorem Steady.bind (h : Steady r) (h' : ∀ a, Steady (k a)) : Steady (r >>= k) := by
  intro position front back b c hb
  obtain ⟨a, c₁, ha, hk⟩ := reader_bind_ok hb
  rcases h position front back a c₁ ha with ⟨rest, hr, hrest⟩ | ⟨e, he, hend⟩
  · obtain ⟨position₁, rest₁⟩ := c₁
    subst hrest
    rw [reader_bind_of_ok hr]
    exact h' a position₁ rest back b c hk
  · exact .inr ⟨e, reader_bind_of_error he, hend⟩

/-- The position is the same with and without the bytes that were cut off. -/
theorem Steady.at_position {k : Nat → Reader β} (h : ∀ position, Steady (k position)) :
    Steady (get >>= fun c => k c.position) := by
  intro position front back b c hb
  exact h position position front back b c hb

theorem steady_lift (x : Except ReadError α) : Steady (liftM x : Reader α) := by
  cases x with
  | error e => exact steady_throw e
  | ok a => exact steady_pure a

theorem steady_listFrom {read : Nat → Reader α} (h : ∀ index, Steady (read index)) (count index : Nat) :
    Steady (readListFrom read count index) := by
  induction count generalizing index with
  | zero => exact steady_pure []
  | succ count ih =>
    exact (h index).bind fun x => (ih (index + 1)).bind fun xs => steady_pure (x :: xs)

theorem steady_list {read : Reader α} (h : Steady read) (count : Nat) : Steady (readList count read) :=
  steady_listFrom (fun _ => h) count 0

end Laws

/-! ## Simple readers -/

theorem steady_operand (part : Part) : Steady (readOperand part) := by
  intro position front back v c h
  unfold readOperand at h ⊢
  cases hdecode : decodeOperand (front ++ back) with
  | none => simp only [hdecode] at h; cases h
  | some p =>
    simp only [hdecode] at h
    cases h
    rcases decodeOperand_append hdecode with ⟨hfront, hlength⟩ | hnone
    · simp only [hfront]
      exact .inl ⟨front.drop p.2, rfl, List.drop_append_of_le_length hlength⟩
    · simp only [hnone]
      exact .inr ⟨_, rfl, rfl⟩

theorem steady_count (part : Part) : Steady (readCount part) := by
  refine (steady_operand part).bind fun count => ?_
  by_cases hpos : 0 ≤ count
  · rw [if_pos hpos]
    exact steady_pure _
  · rw [if_neg hpos]
    exact steady_throw _

theorem steady_byte (part : Part) : Steady (readByte part) := by
  intro position front back byte c h
  cases front with
  | nil => exact .inr ⟨_, rfl, rfl⟩
  | cons a front =>
    cases h
    exact .inl ⟨front, rfl, rfl⟩

theorem splitFront?_of_append {n : Nat} {front back xs ys : List α}
    (h : splitFront? n (front ++ back) = some (xs, ys)) :
    (∃ rest, splitFront? n front = some (xs, rest) ∧ ys = rest ++ back) ∨ splitFront? n front = none := by
  induction n generalizing front xs with
  | zero =>
    cases h
    exact .inl ⟨front, rfl, rfl⟩
  | succ n ih =>
    cases front with
    | nil => exact .inr rfl
    | cons a front =>
      simp only [List.cons_append, splitFront?, Option.map_eq_some_iff, Prod.mk.injEq] at h
      obtain ⟨⟨xs', ys'⟩, hsplit, rfl, rfl⟩ := h
      rcases ih hsplit with ⟨rest, hrest, hys⟩ | hnone
      · exact .inl ⟨rest, by rw [splitFront?, hrest]; rfl, hys⟩
      · exact .inr (by rw [splitFront?, hnone]; rfl)

theorem steady_bytes (n : Nat) (part : Part) : Steady (readBytes n part) := by
  intro position front back bytes c h
  unfold readBytes at h ⊢
  cases hsplit : splitFront? n (front ++ back) with
  | none => simp only [hsplit] at h; cases h
  | some p =>
    simp only [hsplit] at h
    cases h
    rcases splitFront?_of_append hsplit with ⟨rest, hrest, hback⟩ | hnone
    · simp only [hrest]
      exact .inl ⟨rest, rfl, hback⟩
    · simp only [hnone]
      exact .inr ⟨_, rfl, rfl⟩

theorem steady_word : Steady readWord :=
  (steady_bytes 4 .word).bind fun _ => steady_pure _

theorem steady_long : Steady readLong :=
  steady_word.bind fun _ => steady_word.bind fun _ => steady_pure _

theorem steady_text : Steady readText := by
  intro position front back s c h
  by_cases hzero : (0 : UInt8) ∈ front
  · obtain ⟨hfree, hbytes, hposition⟩ := readText_ok h
    obtain ⟨text, htext, hreads⟩ := coded_text hfree
    cases htext
    -- the zero byte that ends the text is in the front
    have hfront : ∃ rest, front = textBytes s ++ 0 :: rest ∧ c.rest = rest ++ back := by
      rcases List.append_eq_append_iff.mp hbytes with ⟨text, htext, -⟩ | ⟨rest, hfront, hrest⟩
      · have hmem : (0 : UInt8) ∈ textBytes s := by
          rw [htext]
          exact List.mem_append_left _ hzero
        exact absurd hmem (nulFree_iff.mp hfree)
      · cases rest with
        | nil =>
          rw [hfront, List.append_nil] at hzero
          exact absurd hzero (nulFree_iff.mp hfree)
        | cons byte rest =>
          obtain ⟨rfl, htail⟩ := List.cons.inj hrest
          exact ⟨rest, hfront, htail⟩
    obtain ⟨rest, rfl, hrest⟩ := hfront
    have hread := hreads position rest trivial
    rw [List.append_assoc, List.singleton_append] at hread
    rw [hread, hposition, List.length_append, List.length_singleton]
    exact .inl ⟨rest, rfl, hrest⟩
  · exact .inr ⟨_, readText_of_no_zero hzero, rfl⟩

/-! ## Parts of a module -/

theorem steady_outer (mode pc : Nat) : Steady (Operand.read mode pc) := by
  refine Operand.read_cases mode pc (steady_pure _) (fun make => ?_) (fun make => ?_) steady_throw
  · exact (steady_operand .operand).bind fun v => steady_pure (make v)
  · exact (steady_operand .operand).bind fun v => (steady_operand .operand).bind fun w =>
      steady_pure (make v w)

theorem steady_middle (mode : Nat) : Steady (Operand.readMiddle mode) :=
  Operand.readMiddle_cases mode (steady_pure _) fun make =>
    (steady_operand .middleOperand).bind fun v => steady_pure (make v)

theorem steady_instruction (pc : Nat) : Steady (Instruction.read pc) := by
  refine (steady_byte .opcode).bind fun code => ?_
  cases Opcode.ofByte? (UInt8.ofNat code) with
  | none => exact steady_throw _
  | some opcode =>
    exact (steady_byte .addressMode).bind fun address => (steady_middle _).bind fun mid =>
      (steady_outer _ pc).bind fun src => (steady_outer _ pc).bind fun dst => steady_pure _

theorem steady_descriptor : Steady TypeDescriptor.read :=
  (steady_operand _).bind fun _ => (steady_operand _).bind fun _ => (steady_count _).bind fun length =>
    (steady_bytes length _).bind fun _ => steady_pure _

theorem steady_payload (kind : DataKind) (count : Nat) (offset : Int) :
    Steady (DataItem.readPayload kind count offset) := by
  cases kind with
  | bytes => exact (steady_bytes count _).bind fun _ => steady_pure _
  | words => exact (steady_list steady_word count).bind fun _ => steady_pure _
  | string =>
    have hbytes (position : Nat) : Steady (do
        let bytes ← readBytes count .stringData
        return DataItem.string offset (← textOf position bytes)) :=
      (steady_bytes count _).bind fun bytes => (steady_lift (textOf position bytes)).bind fun _ =>
        steady_pure _
    exact Steady.at_position hbytes
  | reals =>
    exact (steady_list (steady_long.bind fun _ => steady_pure _) count).bind fun _ => steady_pure _
  | longs =>
    exact (steady_list (steady_long.bind fun _ => steady_pure _) count).bind fun _ => steady_pure _
  | array => exact steady_word.bind fun _ => steady_word.bind fun _ => steady_pure _
  | index => exact steady_word.bind fun _ => steady_word.bind fun _ => steady_pure _
  | pop => exact steady_pure _

theorem steady_item : Steady DataItem.read? := by
  refine (steady_byte .dataItem).bind fun header => ?_
  by_cases hend : header = 0
  · rw [if_pos hend]
    exact steady_pure none
  rw [if_neg hend]
  cases DataKind.ofCode? (header / 16) with
  | none => exact steady_throw _
  | some kind =>
    have htail (count : Nat) : Steady (do
        let offset ← readOperand .dataOffset
        return some (← DataItem.readPayload kind count offset)) :=
      (steady_operand _).bind fun offset => (steady_payload kind count offset).bind fun _ => steady_pure _
    by_cases hlong : header % 16 = 0
    · simp only [if_pos hlong]
      exact (steady_count _).bind htail
    · simp only [if_neg hlong, pure_bind]
      exact htail _

/-- **The data section.** Fewer bytes mean fewer items at most; but if these were not enough, that is an
end that is missing too. -/
theorem steady_items {fuel position : Nat} {front back : Bytes} {items : List DataItem} {c : Cursor}
    (h : readItems fuel ⟨position, front ++ back⟩ = .ok (items, c)) (fuel' : Nat) :
    (∃ rest, readItems fuel' ⟨position, front⟩ = .ok (items, ⟨c.position, rest⟩) ∧ c.rest = rest ++ back) ∨
      ∃ e, readItems fuel' ⟨position, front⟩ = .error e ∧ e.isEnd := by
  induction fuel generalizing fuel' position front items with
  | zero => cases h
  | succ fuel ih =>
    cases fuel' with
    | zero => exact .inr ⟨_, rfl, rfl⟩
    | succ fuel' =>
      obtain ⟨item?, ⟨position₁, rest₁⟩, hitem, htail⟩ := reader_bind_ok h
      rcases steady_item _ _ _ _ _ hitem with ⟨rest, hread, hrest⟩ | ⟨e, he, hend⟩
      · subst hrest
        show (∃ rest, (DataItem.read? >>= _) _ = _ ∧ _) ∨ ∃ e, (DataItem.read? >>= _) _ = _ ∧ _
        rw [reader_bind_of_ok hread]
        cases item? with
        | none =>
          cases htail
          exact .inl ⟨rest, rfl, rfl⟩
        | some item =>
          obtain ⟨items', c', hitems, hpure⟩ := reader_bind_ok htail
          cases hpure
          rcases ih hitems fuel' with ⟨rest', hread', hrest'⟩ | ⟨e, he, hend⟩
          · refine .inl ⟨rest', ?_, hrest'⟩
            show (readItems fuel' >>= _) _ = _
            rw [reader_bind_of_ok hread']
            rfl
          · refine .inr ⟨e, ?_, hend⟩
            exact reader_bind_of_error he
      · exact .inr ⟨e, reader_bind_of_error he, hend⟩

theorem steady_data : Steady readData :=
  fun _ _ _ _ _ h => steady_items h _

theorem steady_link : Steady Link.read :=
  (steady_operand _).bind fun _ => (steady_operand _).bind fun _ => steady_word.bind fun _ =>
    steady_text.bind fun _ => steady_pure _

theorem steady_import : Steady Import.read :=
  steady_word.bind fun _ => steady_text.bind fun _ => steady_pure _

theorem steady_importGroup : Steady readImportGroup :=
  (steady_count _).bind fun count => steady_list steady_import count

theorem steady_case : Steady ExceptionCase.read :=
  steady_text.bind fun _ => (steady_operand _).bind fun _ => steady_pure _

theorem steady_handler : Steady Handler.read :=
  (steady_operand _).bind fun _ => (steady_operand _).bind fun _ => (steady_operand _).bind fun _ =>
    (steady_operand _).bind fun _ => (steady_operand _).bind fun _ =>
    (steady_list steady_case _).bind fun _ => (steady_operand _).bind fun _ => steady_pure _

/-! ## The whole -/

namespace Module

theorem steady_magic : Steady readMagic := by
  refine (steady_operand .magic).bind fun magic => ?_
  by_cases hunsigned : magic = unsignedMagic
  · rw [if_pos hunsigned]
    exact steady_pure magic
  rw [if_neg hunsigned]
  by_cases hsigned : magic = signedMagic
  · rw [if_pos hsigned]
    exact (steady_count _).bind fun length => (steady_bytes length _).bind fun _ => steady_pure magic
  · rw [if_neg hsigned]
    exact steady_throw _

theorem steady_imports (flags : Flags) : Steady (readImports flags) := by
  unfold readImports
  cases flags.contains Flags.imports with
  | false => exact steady_pure []
  | true =>
    exact (steady_count _).bind fun count => (steady_list steady_importGroup count).bind fun _ =>
      (steady_operand _).bind fun _ => steady_pure _

theorem steady_handlers (flags : Flags) : Steady (readHandlers flags) := by
  unfold readHandlers
  cases flags.contains Flags.handlers with
  | false => exact steady_pure []
  | true =>
    exact (steady_count _).bind fun count => (steady_list steady_handler count).bind fun _ =>
      (steady_operand _).bind fun _ => steady_pure _

/-- **Everything before the source path.** -/
theorem steady_front : Steady readFront :=
  steady_magic.bind fun _ => (steady_operand _).bind fun _ => (steady_operand _).bind fun _ =>
    (steady_count _).bind fun codeLength => (steady_operand _).bind fun _ =>
    (steady_count _).bind fun typeCount => (steady_count _).bind fun linkCount =>
    (steady_operand _).bind fun _ => (steady_operand _).bind fun _ =>
    (steady_listFrom steady_instruction codeLength 0).bind fun _ =>
    (steady_list steady_descriptor typeCount).bind fun _ => steady_data.bind fun _ =>
    steady_text.bind fun _ => (steady_list steady_link linkCount).bind fun _ =>
    (steady_imports _).bind fun _ => (steady_handlers _).bind fun _ => steady_pure _

/-- The bytes of the source path. -/
def sourceBytes (m : Module) : Bytes := if m.sourcePath = "" then [] else textBytes m.sourcePath ++ [0]

theorem joinChunks_sourceChunks (m : Module) : joinChunks m.sourceChunks = .ok m.sourceBytes := by
  unfold sourceChunks sourceBytes
  by_cases hempty : m.sourcePath = ""
  · rw [if_pos hempty, if_pos hempty]
    rfl
  · rw [if_neg hempty, if_neg hempty]
    simp [joinChunks, textChunk, bind, Except.bind, pure, Except.pure]

theorem decode_of_front_error {bytes : Bytes} {e : ReadError} (h : readFront ⟨0, bytes⟩ = .error e) :
    decode bytes = .error e := by
  unfold decode StateT.run'
  rw [read_eq, reader_bind_of_error h]
  rfl

theorem decode_of_front_ok {bytes : Bytes} {m : Module} {c : Cursor} (h : readFront ⟨0, bytes⟩ = .ok (m, c)) :
    decode bytes = (readSourcePath c).map fun p => { m with sourcePath := p.1 } := by
  unfold decode StateT.run'
  rw [read_eq, reader_bind_of_ok h]
  cases hpath : readSourcePath c with
  | error e => rw [reader_bind_of_error hpath]; rfl
  | ok p => rw [reader_bind_of_ok hpath]; rfl

/-- A part of the source path is no source path: the zero byte at its end is the only one. -/
theorem readSourcePath_cut {m : Module} (h : NulFree m.sourcePath) {bytes : Bytes}
    (hcut : bytes <+: m.sourceBytes) (hproper : bytes ≠ m.sourceBytes) (hne : bytes ≠ [])
    (position : Nat) :
    readSourcePath ⟨position, bytes⟩ = .error (.unterminatedString position) := by
  have hzero : (0 : UInt8) ∉ bytes := by
    unfold sourceBytes at hcut hproper
    by_cases hempty : m.sourcePath = ""
    · rw [if_pos hempty] at hcut
      exact absurd (List.prefix_nil.mp hcut) hne
    · rw [if_neg hempty] at hcut hproper
      rcases List.prefix_concat_iff.mp hcut with hall | hcut
      · exact absurd hall hproper
      · exact fun hmem => nulFree_iff.mp h (hcut.subset hmem)
  show (if bytes = [] then pure "" else readText : Reader String) _ = _
  rw [if_neg hne]
  exact readText_of_no_zero hzero

/-- **A file that was cut off is recognised.** Of the proper beginnings of a storable module's file only
one is read as a module: the one that ends where the source path begins, and what is missing from the
module is the source path. From all the others the reader learns that bytes are missing. -/
theorem decode_truncated (m : Module) (hmagic : m.magic = unsignedMagic) (h : m.Storable) :
    ∃ front, m.encode = .ok (front ++ m.sourceBytes) ∧
      ∀ bytes, bytes <+: front ++ m.sourceBytes → bytes ≠ front ++ m.sourceBytes →
        (bytes = front → decode bytes = .ok { m with sourcePath := "" }) ∧
        (bytes ≠ front → ∃ e, decode bytes = .error e ∧ e.isEnd) := by
  obtain ⟨front, hfront, hreads⟩ := coded_front hmagic h
  refine ⟨front, ?_, fun bytes hcut hproper => ⟨?_, fun hne => ?_⟩⟩
  · rw [encode_eq, joinChunks_append, hfront, joinChunks_sourceChunks]
    rfl
  · rintro rfl
    have hread := hreads 0 [] trivial
    rw [List.append_nil] at hread
    rw [decode_of_front_ok hread]
    rfl
  obtain ⟨missing, hwhole⟩ := hcut
  rcases List.append_eq_append_iff.mp hwhole with ⟨back, rfl, -⟩ | ⟨path, rfl, hpath⟩
  · -- the cut is before the source path: the reader of the front misses its end
    have hread := hreads 0 [] trivial
    rw [List.append_nil] at hread
    rcases steady_front _ _ _ _ _ hread with ⟨rest, -, hrest⟩ | ⟨e, he, hend⟩
    · obtain ⟨-, rfl⟩ := List.append_eq_nil_iff.mp hrest.symm
      rw [List.append_nil] at hne
      exact absurd rfl hne
    · exact ⟨e, decode_of_front_error he, hend⟩
  · -- the cut is within the source path, which has lost the zero byte at its end
    have hread := hreads 0 path trivial
    have hcut := readSourcePath_cut h.sourcePath ⟨missing, hpath.symm⟩
      (fun he => hproper (by rw [he])) (fun he => hne (by rw [he, List.append_nil]))
    rw [decode_of_front_ok hread, hcut]
    exact ⟨_, rfl, rfl⟩

/-- `brimming` with a source path. -/
def signposted : Module := { brimming with sourcePath := "brim.go" }

/-- Without its last eight bytes the file of `signposted` is that of `brimming`. Without five of them, or
without nine, it is no file of a module. -/
theorem decode_truncated_signposted :
    signposted.magic = unsignedMagic ∧ signposted.Storable ∧
    ∃ front, signposted.encode = .ok (front ++ [98, 114, 105, 109, 46, 103, 111, 0]) ∧
      decode front = .ok brimming ∧
      (∃ e, decode (front ++ [98, 114, 105]) = .error e ∧ e.isEnd) ∧
      ∃ e, decode front.dropLast = .error e ∧ e.isEnd := by
  have hstorable : signposted.Storable := by decide +kernel
  have hpath : signposted.sourceBytes = [98, 114, 105, 109, 46, 103, 111, 0] := by decide +kernel
  obtain ⟨front, hencode, hcut⟩ := decode_truncated signposted rfl hstorable
  rw [hpath] at hencode hcut
  have hlength (bytes : Bytes) (h : bytes.length < front.length + 8) :
      bytes ≠ front ++ [98, 114, 105, 109, 46, 103, 111, 0] := by
    rintro rfl
    simp at h
  have hfront : decode front = .ok brimming :=
    (hcut front (List.prefix_append _ _) (hlength front (by omega))).1 rfl
  have hne : front ≠ [] := by
    rintro rfl
    cases hfront
  refine ⟨rfl, hstorable, front, hencode, hfront, ?_, ?_⟩
  · refine (hcut _ ?_ (hlength _ (by simp))).2 (by simp)
    exact (List.prefix_append_right_inj front).mpr ⟨[109, 46, 103, 111, 0], rfl⟩
  · have hshort : front.dropLast.length < front.length := by
      rw [List.length_dropLast]
      have := List.length_pos_iff.mpr hne
      omega
    refine (hcut _ ?_ (hlength _ (by omega))).2 fun he => ?_
    · exact (List.dropLast_prefix front).trans (List.prefix_append _ _)
    · rw [he] at hshort
      omega

end Module
end DisBackend
