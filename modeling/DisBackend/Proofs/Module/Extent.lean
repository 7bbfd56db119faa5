import Mathlib.Algebra.BigOperators.Group.List.Basic
import Mathlib.Algebra.Order.BigOperators.Group.List
import Mathlib.Algebra.Order.Group.Nat
import DisBackend.Proofs.Module.Parts

/-!
# `Proofs.Module.Extent` — how much can come out of a file

A number in a file may announce more than the file holds. But every element of every list is made from
bytes that were taken for it and for nothing else, so that the lists of a module have no more elements
together than the file has bytes.

## Contents

* `TypeDescriptor.extent`, `DataItem.extent`, …, `Module.extent` — how many elements there are;
* `Spends` and its laws — how many bytes a reader takes for what it reads;
* `Module.spends_module` — a whole module;
* `Module.Within`, `Module.within_of_extent_le` — the lists one by one.
-/

namespace DisBackend

/-! ## Elements -/

/-- A descriptor and the bytes of its map. -/
def TypeDescriptor.extent (d : TypeDescriptor) : Nat := 1 + d.map.length

/-- A data item and its elements. -/
def DataItem.extent (item : DataItem) : Nat := 1 + item.size

/-- A link and the bytes of its name. -/
def Link.extent (l : Link) : Nat := 1 + l.name.utf8ByteSize

/-- An import and the bytes of its name. -/
def Import.extent (i : Import) : Nat := 1 + i.name.utf8ByteSize

/-- A group and its imports. -/
def groupExtent (group : List Import) : Nat := 1 + (group.map Import.extent).sum

/-- A case and the bytes of its name. -/
def ExceptionCase.extent (c : ExceptionCase) : Nat := 1 + c.name.utf8ByteSize

/-- A handler and its cases. -/
def Handler.extent (h : Handler) : Nat := 1 + (h.cases.map ExceptionCase.extent).sum

/-- **All elements of all lists of a module,** those of lists in lists and the bytes of texts included. -/
def Module.extent (m : Module) : Nat :=
  m.code.length + (m.types.map TypeDescriptor.extent).sum + (m.data.map DataItem.extent).sum
    + m.name.utf8ByteSize + (m.links.map Link.extent).sum + (m.imports.map groupExtent).sum
    + (m.handlers.map Handler.extent).sum + m.sourcePath.utf8ByteSize

/-! ## What readers take -/

variable {α β : Type}

/-- `r` takes at least `weigh a` bytes to read `a`. -/
def Spends (r : Reader α) (weigh : α → Nat) : Prop :=
  ∀ c a c', r c = .ok (a, c') → weigh a + c'.rest.length ≤ c.rest.length

section Laws

variable {r : Reader α} {k : α → Reader β} {weigh weigh' : α → Nat} {total : β → Nat}

theorem spends_pure {a : α} (h : weigh a = 0) : Spends (pure a : Reader α) weigh := by
  intro c b c' hb
  cases hb
  omega

theorem spends_throw (e : ReadError) : Spends (throw e : Reader α) weigh := by
  intro c a c' h
  cases h

/-- What was taken first need not be taken again. -/
theorem Spends.bind_yields {Q : α → Prop} (h : Spends r weigh) (hyields : Yields r Q)
    (h' : ∀ a, Q a → Spends (k a) fun b => total b - weigh a) : Spends (r >>= k) total := by
  intro c b c'' hb
  obtain ⟨a, c', ha, hk⟩ := reader_bind_ok hb
  have hfirst := h c a c' ha
  have hsecond : total b - weigh a + c''.rest.length ≤ c'.rest.length :=
    h' a (hyields c a c' ha) c' b c'' hk
  omega

theorem Spends.bind (h : Spends r weigh) (h' : ∀ a, Spends (k a) fun b => total b - weigh a) :
    Spends (r >>= k) total :=
  h.bind_yields (fun _ _ _ _ => trivial) fun a _ => h' a

theorem Spends.mono (h : Spends r weigh) (hle : ∀ a, weigh' a ≤ weigh a) : Spends r weigh' := by
  intro c a c' ha
  have hspent := h c a c' ha
  have := hle a
  omega

/-- Nothing is taken to look at the position. -/
theorem Spends.after_get {k : Cursor → Reader β} (h : ∀ c, Spends (k c) total) :
    Spends (get >>= k) total :=
  fun c b c' hb => h c c b c' hb

theorem spends_lift (x : Except ReadError α) : Spends (liftM x : Reader α) fun _ => 0 := by
  cases x with
  | error e => exact spends_throw e
  | ok a => exact spends_pure rfl

theorem spends_listFrom {read : Nat → Reader α} (h : ∀ index, Spends (read index) weigh)
    (count index : Nat) :
    Spends (readListFrom read count index) fun xs => (xs.map weigh).sum := by
  induction count generalizing index with
  | zero => exact spends_pure rfl
  | succ count ih =>
    refine (h index).bind fun x => ?_
    refine Spends.bind (ih (index + 1)) fun xs => spends_pure ?_
    rw [List.map_cons, List.sum_cons]
    omega

theorem spends_list {read : Reader α} (h : Spends read weigh) (count : Nat) :
    Spends (readList count read) fun xs => (xs.map weigh).sum :=
  spends_listFrom (fun _ => h) count 0

end Laws

/-! ## Simple readers -/

theorem spends_operand (part : Part) : Spends (readOperand part) fun _ => 1 := by
  intro c v c' h
  unfold readOperand at h
  cases hdecode : decodeOperand c.rest with
  | none => simp only [hdecode] at h; cases h
  | some p =>
    simp only [hdecode] at h
    cases h
    obtain ⟨hpos, hle⟩ := decodeOperand_length hdecode
    show 1 + (c.rest.drop p.2).length ≤ c.rest.length
    rw [List.length_drop]
    omega

theorem spends_count (part : Part) : Spends (readCount part) fun _ => 1 := by
  refine (spends_operand part).bind fun count => ?_
  by_cases hpos : 0 ≤ count
  · rw [if_pos hpos]
    exact spends_pure rfl
  · rw [if_neg hpos]
    exact spends_throw _

theorem spends_byte (part : Part) : Spends (readByte part) fun _ => 1 := by
  intro c byte c' h
  unfold readByte at h
  cases hrest : c.rest with
  | nil => simp only [hrest] at h; cases h
  | cons a rest =>
    simp only [hrest] at h
    cases h
    show 1 + rest.length ≤ rest.length + 1
    omega

theorem splitFront?_eq {n : Nat} {xs front back : List α} (h : splitFront? n xs = some (front, back)) :
    xs = front ++ back := by
  induction n generalizing xs front with
  | zero => cases h; rfl
  | succ n ih =>
    cases xs with
    | nil => cases h
    | cons x xs =>
      simp only [splitFront?, Option.map_eq_some_iff, Prod.mk.injEq] at h
      obtain ⟨⟨front', back'⟩, hsplit, rfl, rfl⟩ := h
      rw [List.cons_append, ← ih hsplit]

theorem spends_bytes (n : Nat) (part : Part) : Spends (readBytes n part) List.length := by
  intro c bytes c' h
  unfold readBytes at h
  cases hsplit : splitFront? n c.rest with
  | none => simp only [hsplit] at h; cases h
  | some p =>
    simp only [hsplit] at h
    cases h
    rw [splitFront?_eq hsplit, List.length_append]

theorem spends_word : Spends readWord fun _ => 1 := by
  intro c w c' h
  obtain ⟨bytes, c₁, hbytes, hpure⟩ := reader_bind_ok h
  cases hpure
  have hspent := spends_bytes 4 .word c bytes c' hbytes
  have hlength := yields_bytes 4 .word c bytes c' hbytes
  show 1 + c'.rest.length ≤ c.rest.length
  omega

theorem spends_long : Spends readLong fun _ => 1 :=
  spends_word.bind fun _ => (spends_word.mono fun _ => Nat.zero_le _).bind fun _ => spends_pure rfl

theorem spends_text : Spends readText fun s => s.utf8ByteSize + 1 := by
  intro c s c' h
  obtain ⟨-, hbytes, -⟩ := readText_ok h
  show s.utf8ByteSize + 1 + c'.rest.length ≤ c.rest.length
  rw [hbytes, List.length_append, List.length_cons, length_textBytes]
  omega

/-! ## Parts of a module -/

theorem spends_outer (mode pc : Nat) : Spends (Operand.read mode pc) fun _ => 0 := by
  refine Operand.read_cases (P := (Spends · fun _ => 0)) mode pc (spends_pure rfl) (fun make => ?_)
    (fun make => ?_) spends_throw
  · exact (spends_operand .operand).bind fun _ => spends_pure rfl
  · exact (spends_operand .operand).bind fun _ => (spends_operand .operand).bind fun _ => spends_pure rfl

theorem spends_middle (mode : Nat) : Spends (Operand.readMiddle mode) fun _ => 0 :=
  Operand.readMiddle_cases (P := (Spends · fun _ => 0)) mode (spends_pure rfl) fun _ =>
    (spends_operand .middleOperand).bind fun _ => spends_pure rfl

theorem spends_instruction (pc : Nat) : Spends (Instruction.read pc) fun _ => 1 := by
  refine (spends_byte .opcode).bind fun code => ?_
  cases Opcode.ofByte? (UInt8.ofNat code) with
  | none => exact spends_throw _
  | some opcode =>
    exact (spends_byte .addressMode).bind fun address => (spends_middle _).bind fun mid =>
      (spends_outer _ pc).bind fun src => (spends_outer _ pc).bind fun dst => spends_pure rfl

theorem spends_descriptor : Spends TypeDescriptor.read TypeDescriptor.extent := by
  refine (spends_operand _).bind fun id => (spends_operand _).bind fun size =>
    (spends_count _).bind fun length => (spends_bytes length _).bind fun map => spends_pure ?_
  show 1 + map.length - 1 - 1 - 1 - map.length = 0
  omega

theorem spends_payload (kind : DataKind) (count : Nat) (offset : Int) :
    Spends (DataItem.readPayload kind count offset) fun item => item.size - 1 := by
  have hlist {α : Type} {read : Reader α} (h : Spends read fun _ => 1) (make : List α → DataItem)
      (hmake : ∀ xs, (make xs).size = xs.length) :
      Spends (readList count read >>= fun xs => pure (make xs)) fun item => item.size - 1 := by
    refine (spends_list h count).bind fun xs => spends_pure ?_
    have hsum : (xs.map fun _ => 1).sum = xs.length := by simp
    rw [hmake, hsum]
    omega
  cases kind with
  | bytes =>
    refine (spends_bytes count _).bind fun bytes => spends_pure ?_
    show bytes.length - 1 - bytes.length = 0
    omega
  | words => exact hlist spends_word (.words offset) fun _ => rfl
  | reals => exact hlist (spends_long.bind fun _ => spends_pure rfl) (.reals offset) fun _ => rfl
  | longs => exact hlist (spends_long.bind fun _ => spends_pure rfl) (.longs offset) fun _ => rfl
  | string =>
    refine Spends.after_get fun c => (spends_bytes count _).bind fun bytes => ?_
    refine (spends_lift _).bind_yields (yields_lift _) fun s hs => spends_pure ?_
    show s.utf8ByteSize - 1 - bytes.length - 0 = 0
    rw [textOf_ok_iff.mp hs, length_textBytes]
    omega
  | array => exact spends_word.bind fun _ => spends_word.bind fun _ => spends_pure rfl
  | index => exact spends_word.bind fun _ => spends_word.bind fun _ => spends_pure rfl
  | pop => exact spends_pure rfl

/-- The byte that ends the data section is taken too. -/
theorem spends_item : Spends DataItem.read? fun item? => item?.elim 1 DataItem.extent := by
  refine (spends_byte .dataItem).bind fun header => ?_
  by_cases hend : header = 0
  · rw [if_pos hend]
    exact spends_pure rfl
  rw [if_neg hend]
  cases DataKind.ofCode? (header / 16) with
  | none => exact spends_throw _
  | some kind =>
    have htail (count : Nat) : Spends (do
        let offset ← readOperand .dataOffset
        return some (← DataItem.readPayload kind count offset))
        fun item? => item?.elim 1 DataItem.extent - 1 := by
      refine (spends_operand _).bind fun offset => (spends_payload kind count offset).bind fun item =>
        spends_pure ?_
      show 1 + item.size - 1 - 1 - (item.size - 1) = 0
      omega
    by_cases hlong : header % 16 = 0
    · simp only [if_pos hlong]
      refine (spends_count _).bind fun count => (htail count).mono fun item? => ?_
      omega
    · simp only [if_neg hlong, pure_bind]
      exact htail _

theorem spends_items (fuel : Nat) :
    Spends (readItems fuel) fun items => (items.map DataItem.extent).sum := by
  induction fuel with
  | zero => exact Spends.after_get fun c => spends_throw _
  | succ fuel ih =>
    refine spends_item.bind fun item? => ?_
    cases item? with
    | none => exact spends_pure rfl
    | some item =>
      refine ih.bind fun items => spends_pure ?_
      show ((item :: items).map DataItem.extent).sum - item.extent - (items.map DataItem.extent).sum = 0
      rw [List.map_cons, List.sum_cons]
      omega

theorem spends_data : Spends readData fun items => (items.map DataItem.extent).sum :=
  Spends.after_get fun _ => spends_items _

theorem spends_link : Spends Link.read Link.extent := by
  refine (spends_operand _).bind fun pc => (spends_operand _).bind fun typeId =>
    spends_word.bind fun signature => spends_text.bind fun name => spends_pure ?_
  show 1 + name.utf8ByteSize - 1 - 1 - 1 - (name.utf8ByteSize + 1) = 0
  omega

theorem spends_import : Spends Import.read Import.extent := by
  refine spends_word.bind fun signature => spends_text.bind fun name => spends_pure ?_
  show 1 + name.utf8ByteSize - 1 - (name.utf8ByteSize + 1) = 0
  omega

theorem spends_importGroup : Spends readImportGroup groupExtent := by
  refine (spends_count _).bind fun count => (spends_list spends_import count).mono fun group => ?_
  show 1 + (group.map Import.extent).sum - 1 ≤ (group.map Import.extent).sum
  omega

theorem spends_case : Spends ExceptionCase.read ExceptionCase.extent := by
  refine spends_text.bind fun name => (spends_operand _).bind fun pc => spends_pure ?_
  show 1 + name.utf8ByteSize - (name.utf8ByteSize + 1) - 1 = 0
  omega

theorem spends_handler : Spends Handler.read Handler.extent := by
  refine (spends_operand _).bind fun exceptionOffset => (spends_operand _).bind fun pc1 =>
    (spends_operand _).bind fun pc2 => (spends_operand _).bind fun typeId =>
    (spends_operand _).bind fun labels => (spends_list spends_case _).bind fun cases =>
    (spends_operand _).bind fun wildcardPc => spends_pure ?_
  show 1 + (cases.map ExceptionCase.extent).sum - 1 - 1 - 1 - 1 - 1
    - (cases.map ExceptionCase.extent).sum - 1 = 0
  omega

/-! ## The whole -/

namespace Module

theorem spends_magic : Spends readMagic fun _ => 0 := by
  refine (spends_operand .magic).bind fun magic => ?_
  by_cases hunsigned : magic = unsignedMagic
  · rw [if_pos hunsigned]
    exact spends_pure rfl
  rw [if_neg hunsigned]
  by_cases hsigned : magic = signedMagic
  · rw [if_pos hsigned]
    refine (spends_count _).bind fun length => (spends_bytes length _).bind fun signature =>
      spends_pure (Nat.zero_sub _)
  · rw [if_neg hsigned]
    exact spends_throw _

theorem spends_imports (flags : Flags) :
    Spends (readImports flags) fun groups => (groups.map groupExtent).sum := by
  unfold readImports
  cases flags.contains Flags.imports with
  | false => exact spends_pure rfl
  | true =>
    refine (spends_count _).bind fun count => (spends_list spends_importGroup count).bind fun groups =>
      (spends_operand _).bind fun _ => spends_pure ?_
    show (groups.map groupExtent).sum - 1 - (groups.map groupExtent).sum - 1 = 0
    omega

theorem spends_handlers (flags : Flags) :
    Spends (readHandlers flags) fun handlers => (handlers.map Handler.extent).sum := by
  unfold readHandlers
  cases flags.contains Flags.handlers with
  | false => exact spends_pure rfl
  | true =>
    refine (spends_count _).bind fun count => (spends_list spends_handler count).bind fun handlers =>
      (spends_operand _).bind fun _ => spends_pure ?_
    show (handlers.map Handler.extent).sum - 1 - (handlers.map Handler.extent).sum - 1 = 0
    omega

theorem spends_sourcePath : Spends readSourcePath String.utf8ByteSize := by
  refine Spends.after_get fun c => ?_
  by_cases hend : c.rest = []
  · rw [if_pos hend]
    exact spends_pure rfl
  · rw [if_neg hend]
    exact spends_text.mono fun s => Nat.le_succ _

/-- **No more comes out of a file than is in it.** -/
theorem spends_module : Spends read extent := by
  refine spends_magic.bind fun magic => (spends_operand _).bind fun flags =>
    (spends_operand _).bind fun stackSize => (spends_count _).bind fun codeLength =>
    (spends_operand _).bind fun dataSize => (spends_count _).bind fun typeCount =>
    (spends_count _).bind fun linkCount => (spends_operand _).bind fun entryPc =>
    (spends_operand _).bind fun entryType =>
    (spends_listFrom spends_instruction codeLength 0).bind fun code =>
    (spends_list spends_descriptor typeCount).bind fun types => spends_data.bind fun data =>
    spends_text.bind fun name => (spends_list spends_link linkCount).bind fun links =>
    (spends_imports _).bind fun imports => (spends_handlers _).bind fun handlers =>
    spends_sourcePath.bind fun sourcePath => spends_pure ?_
  have hcode : (code.map fun _ => 1).sum = code.length := by simp
  simp only [extent, hcode]
  omega

/-- No list in the module has more than `limit` elements. -/
structure Within (m : Module) (limit : Nat) : Prop where
  code : m.code.length ≤ limit
  types : m.types.length ≤ limit
  maps : ∀ d ∈ m.types, d.map.length ≤ limit
  data : m.data.length ≤ limit
  elements : ∀ item ∈ m.data, item.size ≤ limit
  links : m.links.length ≤ limit
  groups : m.imports.length ≤ limit
  imports : ∀ group ∈ m.imports, group.length ≤ limit
  handlers : m.handlers.length ≤ limit
  cases : ∀ h ∈ m.handlers, h.cases.length ≤ limit

/-- Elements that count for one at least, one by one and together. -/
theorem sum_map_bounds {α : Type} (weigh : α → Nat) (h : ∀ x, 1 ≤ weigh x) (xs : List α) :
    xs.length ≤ (xs.map weigh).sum ∧ ∀ x ∈ xs, weigh x ≤ (xs.map weigh).sum := by
  have hlength := List.length_le_sum_of_one_le (xs.map weigh) (List.forall_mem_map.mpr fun x _ => h x)
  rw [List.length_map] at hlength
  exact ⟨hlength, fun x hx => List.le_sum_of_mem (List.mem_map_of_mem hx)⟩

/-- A list has no more elements than there are in all lists. -/
theorem within_of_extent_le {m : Module} {limit : Nat} (h : m.extent ≤ limit) : m.Within limit := by
  obtain ⟨htypes, hmaps⟩ := sum_map_bounds TypeDescriptor.extent (fun _ => Nat.le_add_right 1 _) m.types
  obtain ⟨hdata, helements⟩ := sum_map_bounds DataItem.extent (fun _ => Nat.le_add_right 1 _) m.data
  obtain ⟨hlinks, -⟩ := sum_map_bounds Link.extent (fun _ => Nat.le_add_right 1 _) m.links
  obtain ⟨hgroups, himports⟩ := sum_map_bounds groupExtent (fun _ => Nat.le_add_right 1 _) m.imports
  obtain ⟨hhandlers, hcases⟩ := sum_map_bounds Handler.extent (fun _ => Nat.le_add_right 1 _) m.handlers
  unfold extent at h
  refine ⟨by omega, by omega, fun d hd => ?_, by omega, fun item hitem => ?_, by omega, by omega,
    fun group hgroup => ?_, by omega, fun handler hhandler => ?_⟩
  · have hle : 1 + d.map.length ≤ _ := hmaps d hd
    omega
  · have hle : 1 + item.size ≤ _ := helements item hitem
    omega
  · have hle : 1 + (group.map Import.extent).sum ≤ _ := himports group hgroup
    have hlength := (sum_map_bounds Import.extent (fun _ => Nat.le_add_right 1 _) group).1
    omega
  · have hle : 1 + (handler.cases.map ExceptionCase.extent).sum ≤ _ := hcases handler hhandler
    have hlength := (sum_map_bounds ExceptionCase.extent (fun _ => Nat.le_add_right 1 _) handler.cases).1
    omega

end Module
end DisBackend
