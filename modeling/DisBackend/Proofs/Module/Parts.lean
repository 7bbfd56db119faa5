import Mathlib.Tactic.MkIffOfInductiveProp
import DisBackend.Proofs.Module.Coding

/-!
# `Proofs.Module.Parts` — the parts of a module, written and read

For each part of a module there is a predicate `Storable`, which says when its numbers, its lengths and
its texts have room in a file. A part with it can be written and is read back; and every part that is
read has it.

## Contents

* `Instruction.Storable`, `TypeDescriptor.Storable`, `DataItem.Storable`, `Link.Storable`,
  `Import.Storable`, `Handler.Storable`;
* `coded_instruction`, `coded_descriptor`, `coded_data`, … — a storable part is read back;
* `Operand.read_cases`, `Operand.readMiddle_cases` — the ways in which an operand is read;
* `yields_instruction`, `yields_descriptor`, `yields_data`, … — a part that was read is storable.
-/

namespace DisBackend

/-! ## Instructions -/

/-- Every number of the instruction fits, and its middle operand is one that has a mode. -/
@[mk_iff]
structure Instruction.Storable (i : Instruction) : Prop where
  values : ∀ operand ∈ i.operands, ∀ v ∈ operand.values, Encodable v
  middle : i.mid.isIndirect = false

instance (i : Instruction) : Decidable i.Storable :=
  decidable_of_iff' _ (Instruction.storable_iff i)

/-- An operand with one number. -/
theorem coded_direct {v : Int} (h : Encodable v) (part : Part) (make : Int → Operand) :
    Coded Anything (joinChunks [encodeOperand v]) (readOperand part >>= fun v => pure (make v))
      (make v) :=
  (coded_operand h part).cons (coded_nil (make v))

/-- An operand with two numbers. -/
theorem coded_indirect {v w : Int} (h : Encodable v) (h' : Encodable w) (make : Int → Int → Operand) :
    Coded Anything (joinChunks [encodeOperand v, encodeOperand w])
      (readOperand .operand >>= fun v => readOperand .operand >>= fun w => pure (make v w))
      (make v w) :=
  (coded_operand h .operand).cons ((coded_operand h' .operand).cons (coded_nil (make v w)))

theorem coded_outer {o : Operand} (h : ∀ v ∈ o.values, Encodable v) (pc : Nat) :
    Coded Anything (joinChunks (o.values.map encodeOperand)) (Operand.read o.mode pc) o := by
  cases o with
  | absent => exact coded_nil _
  | imm v => exact coded_direct (h v List.mem_cons_self) .operand .imm
  | fp v => exact coded_direct (h v List.mem_cons_self) .operand .fp
  | mp v => exact coded_direct (h v List.mem_cons_self) .operand .mp
  | fpIndirect base offset =>
    exact coded_indirect (h base List.mem_cons_self) (h offset (by simp [Operand.values])) .fpIndirect
  | mpIndirect base offset =>
    exact coded_indirect (h base List.mem_cons_self) (h offset (by simp [Operand.values])) .mpIndirect

theorem coded_middle {o : Operand} (h : ∀ v ∈ o.values, Encodable v) (hdirect : o.isIndirect = false) :
    Coded Anything (joinChunks ((if o.middleMode = 0 then [] else o.values).map encodeOperand))
      (Operand.readMiddle (o.middleMode / 64)) o := by
  cases o with
  | absent => exact coded_nil _
  | imm v =>
    rw [if_neg (by simp [Operand.middleMode])]
    simp only [Operand.middleMode, Nat.reduceDiv]
    exact coded_direct (h v List.mem_cons_self) .middleOperand .imm
  | fp v =>
    rw [if_neg (by simp [Operand.middleMode])]
    simp only [Operand.middleMode, Nat.reduceDiv]
    exact coded_direct (h v List.mem_cons_self) .middleOperand .fp
  | mp v =>
    rw [if_neg (by simp [Operand.middleMode])]
    simp only [Operand.middleMode, Nat.reduceDiv]
    exact coded_direct (h v List.mem_cons_self) .middleOperand .mp
  | fpIndirect base offset => cases hdirect
  | mpIndirect base offset => cases hdirect

theorem Operand.mode_lt (o : Operand) : o.mode < 8 := by
  cases o <;> simp [mode]

theorem Operand.middleMode_cases (o : Operand) : o.middleMode % 64 = 0 ∧ o.middleMode < 256 := by
  cases o <;> simp [middleMode]

/-- The address byte holds the three modes apart. -/
theorem Instruction.addressByte_parts (i : Instruction) :
    (UInt8.ofNat i.addressByte).toNat / 64 = i.mid.middleMode / 64 ∧
      (UInt8.ofNat i.addressByte).toNat / 8 % 8 = i.src.mode ∧
      (UInt8.ofNat i.addressByte).toNat % 8 = i.dst.mode := by
  have hsrc := i.src.mode_lt
  have hdst := i.dst.mode_lt
  obtain ⟨hmid, hlt⟩ := i.mid.middleMode_cases
  have hbyte : (UInt8.ofNat i.addressByte).toNat = i.addressByte := by
    rw [UInt8.toNat_ofNat']
    unfold Instruction.addressByte
    omega
  rw [hbyte]
  unfold Instruction.addressByte
  omega

theorem coded_instruction {i : Instruction} (h : i.Storable) (pc : Nat) :
    Coded Anything i.encode (Instruction.read pc) i := by
  have hsrc := coded_outer (h.values i.src (by simp [Instruction.operands])) pc
  have hmid := coded_middle (h.values i.mid (by simp [Instruction.operands])) h.middle
  have hdst := coded_outer (h.values i.dst (by simp [Instruction.operands])) pc
  have hsplit : i.encode = joinChunks (.ok [i.opcode.toByte] :: .ok [UInt8.ofNat i.addressByte] ::
      ((if i.mid.middleMode = 0 then [] else i.mid.values).map encodeOperand
        ++ (i.src.values.map encodeOperand ++ i.dst.values.map encodeOperand))) := by
    simp only [Instruction.encode, List.map_append, List.append_assoc]
    exact joinChunks_cons_joinChunks [.ok [i.opcode.toByte], .ok [UInt8.ofNat i.addressByte]] _
  obtain ⟨hmidMode, hsrcMode, hdstMode⟩ := i.addressByte_parts
  rw [hsplit]
  refine (coded_byte i.opcode.toByte .opcode).cons ?_
  rw [UInt8.ofNat_toNat, Opcode.ofByte?_toByte]
  refine (coded_byte (UInt8.ofNat i.addressByte) .addressMode).cons ?_
  rw [hmidMode, hsrcMode, hdstMode]
  exact hmid.append (hsrc.append (hdst.map (Instruction.mk i.opcode i.src i.mid)))

/-- To read an operand is to read nothing, one number or two numbers, or to find that there is no such
mode. -/
theorem Operand.read_cases {P : Reader Operand → Prop} (mode pc : Nat) (absent : P (pure .absent))
    (one : ∀ make : Int → Operand, P (readOperand .operand >>= fun v => pure (make v)))
    (two : ∀ make : Int → Int → Operand,
      P (readOperand .operand >>= fun v => readOperand .operand >>= fun w => pure (make v w)))
    (none : ∀ e, P (throw e)) : P (Operand.read mode pc) := by
  unfold Operand.read
  split
  · exact one .mp
  · exact one .fp
  · exact one .imm
  · exact absent
  · exact two .mpIndirect
  · exact two .fpIndirect
  · exact none _

theorem Operand.readMiddle_cases {P : Reader Operand → Prop} (mode : Nat) (absent : P (pure .absent))
    (one : ∀ make : Int → Operand, P (readOperand .middleOperand >>= fun v => pure (make v))) :
    P (Operand.readMiddle mode) := by
  unfold Operand.readMiddle
  split
  · exact absent
  · exact one .imm
  · exact one .fp
  · exact one .mp

/-- What an operand reader yields. -/
theorem yields_outer (mode pc : Nat) :
    Yields (Operand.read mode pc) fun o => ∀ v ∈ o.values, Encodable v := by
  have hone (make : Int → Operand) (hmake : ∀ v, (make v).values = [v]) :
      Yields (readOperand .operand >>= fun v => pure (make v))
        fun o => ∀ v ∈ o.values, Encodable v := by
    refine (yields_operand .operand).bind fun v hv => yields_pure ?_
    rw [hmake, List.forall_mem_singleton]
    exact hv
  have htwo (make : Int → Int → Operand) (hmake : ∀ v w, (make v w).values = [v, w]) :
      Yields (readOperand .operand >>= fun v => readOperand .operand >>= fun w => pure (make v w))
        fun o => ∀ v ∈ o.values, Encodable v := by
    refine (yields_operand .operand).bind fun v hv => (yields_operand .operand).bind fun w hw =>
      yields_pure ?_
    rw [hmake, List.forall_mem_cons, List.forall_mem_singleton]
    exact ⟨hv, hw⟩
  match mode with
  | 0 => exact hone .mp fun _ => rfl
  | 1 => exact hone .fp fun _ => rfl
  | 2 => exact hone .imm fun _ => rfl
  | 3 => exact yields_pure (by simp [Operand.values])
  | 4 => exact htwo .mpIndirect fun _ _ => rfl
  | 5 => exact htwo .fpIndirect fun _ _ => rfl
  | mode + 6 => exact yields_throw _

theorem yields_middle (mode : Nat) :
    Yields (Operand.readMiddle mode) fun o => (∀ v ∈ o.values, Encodable v) ∧ o.isIndirect = false := by
  have hone (make : Int → Operand)
      (hmake : ∀ v, (make v).values = [v] ∧ (make v).isIndirect = false) :
      Yields (readOperand .middleOperand >>= fun v => pure (make v))
        fun o => (∀ v ∈ o.values, Encodable v) ∧ o.isIndirect = false := by
    refine (yields_operand .middleOperand).bind fun v hv => yields_pure ?_
    rw [(hmake v).1, List.forall_mem_singleton]
    exact ⟨hv, (hmake v).2⟩
  match mode with
  | 0 => exact yields_pure (by simp [Operand.values, Operand.isIndirect])
  | 1 => exact hone .imm fun _ => ⟨rfl, rfl⟩
  | 2 => exact hone .fp fun _ => ⟨rfl, rfl⟩
  | mode + 3 => exact hone .mp fun _ => ⟨rfl, rfl⟩

theorem yields_instruction (pc : Nat) : Yields (Instruction.read pc) Instruction.Storable := by
  refine Yields.after fun code => ?_
  cases hopcode : Opcode.ofByte? (UInt8.ofNat code) with
  | none => exact yields_throw _
  | some opcode =>
    refine Yields.after fun address => ?_
    refine (yields_middle _).bind fun mid hmid => (yields_outer _ pc).bind fun src hsrc =>
      (yields_outer _ pc).bind fun dst hdst => yields_pure ⟨?_, hmid.2⟩
    simp only [Instruction.operands, List.forall_mem_cons]
    exact ⟨hsrc, hmid.1, hdst, by simp⟩

/-! ## Descriptors -/

/-- The numbers of the descriptor fit, and the bytes of its map can be counted. -/
@[mk_iff]
structure TypeDescriptor.Storable (d : TypeDescriptor) : Prop where
  id : Encodable d.id
  size : Encodable d.size
  map : (d.map.length : Int) ≤ operandMax

instance (d : TypeDescriptor) : Decidable d.Storable :=
  decidable_of_iff' _ (TypeDescriptor.storable_iff d)

theorem coded_descriptor {d : TypeDescriptor} (h : d.Storable) :
    Coded Anything d.encode TypeDescriptor.read d := by
  have hmap := coded_bytes d.map .typeDescriptorMap
  exact (coded_operand h.id .typeDescriptorId).cons ((coded_operand h.size .typeDescriptorSize).cons
    ((coded_count h.map .typeDescriptorMap).cons (hmap.cons (coded_nil d))))

theorem yields_descriptor : Yields TypeDescriptor.read TypeDescriptor.Storable := by
  refine (yields_operand _).bind fun id hid => (yields_operand _).bind fun size hsize =>
    (yields_count _).bind fun length hlength => (yields_bytes length _).bind fun map hmap => ?_
  apply yields_pure
  exact ⟨hid, hsize, by rw [hmap]; exact hlength⟩

/-! ## Data items -/

/-- The offset fits, and the elements can be counted. -/
@[mk_iff]
structure DataItem.Storable (item : DataItem) : Prop where
  offset : Encodable item.offset
  size : (item.size : Int) ≤ operandMax

instance (item : DataItem) : Decidable item.Storable :=
  decidable_of_iff' _ (DataItem.storable_iff item)

/-- Chunks that hold no number. -/
theorem joinChunks_map_ok {α : Type} (encode : α → Bytes) (xs : List α) :
    joinChunks (xs.map fun x => .ok (encode x)) = .ok (xs.flatMap encode) := by
  induction xs with
  | nil => rfl
  | cons x xs ih =>
    rw [List.map_cons, List.flatMap_cons]
    exact joinChunks_cons_ok rfl ih

/-- Values one after the other. -/
theorem coded_values {α : Type} {encode : α → Bytes} {read : Reader α} {xs : List α}
    (h : ∀ x, Reads Anything read (encode x) x) :
    Coded Anything (.ok (xs.flatMap encode)) (readList xs.length read) xs := by
  rw [← joinChunks_map_ok]
  exact coded_list fun x _ => ⟨encode x, rfl, h x⟩

theorem reads_real (v : Double) :
    Reads Anything (do return ⟨← readLong⟩) (longBytesOf v.bits) v :=
  (reads_long v.bits).map Double.mk

theorem reads_int64 (v : Int64) :
    Reads Anything (do return (← readLong).toInt64) (longBytesOf v.toUInt64) v :=
  (reads_long v.toUInt64).map UInt64.toInt64

/-- Two words that are used together. -/
theorem coded_words {β : Type} (first second : UInt32) (make : UInt32 → UInt32 → β) :
    Coded Anything (.ok (wordBytesOf first ++ wordBytesOf second))
      (readWord >>= fun v => readWord >>= fun w => pure (make v w)) (make first second) :=
  ⟨_, rfl, (reads_word first).bind ((reads_word second).map (make first))⟩

/-- An offset with room in a file is the same as a 32-bit number. -/
theorem toInt_ofInt_of_encodable {v : Int} (h : Encodable v) : (Int32.ofInt v).toInt = v := by
  obtain ⟨hmin, hmax⟩ := h
  unfold operandMin at hmin
  unfold operandMax at hmax
  exact Int32.toInt_ofInt_of_le (by omega) (by omega)

theorem reads_lift {α : Type} {x : Except ReadError α} {a : α} (h : x = .ok a) :
    Reads Anything (liftM x : Reader α) [] a := by
  subst h
  intro position rest _
  rfl

theorem coded_payload {item : DataItem} (h : Encodable item.offset) :
    Coded Anything (.ok item.payload) (DataItem.readPayload item.kind item.size item.offset) item := by
  cases item with
  | bytes offset values => exact (coded_bytes values .byteData).map (DataItem.bytes offset)
  | words offset values => exact (coded_values reads_word).map (DataItem.words offset)
  | string offset value =>
    -- the position is only needed to report a text that is none
    refine ⟨textBytes value, rfl, fun position rest _ => ?_⟩
    obtain ⟨bytes, hbytes, hreads⟩ := coded_bytes (textBytes value) .stringData
    cases hbytes
    have htext : Reads Anything (liftM (textOf position (textBytes value)) : Reader String) [] value :=
      reads_lift (textOf_ok_iff.mpr rfl)
    have hboth : Reads Anything (readBytes (textBytes value).length .stringData >>= fun bytes => do
        return DataItem.string offset (← textOf position bytes)) _ _ := hreads.bind (htext.map _)
    replace hboth := hboth position rest trivial
    rw [List.append_nil, length_textBytes] at hboth
    rw [length_textBytes]
    exact hboth
  | reals offset values => exact (coded_values reads_real).map (DataItem.reals offset)
  | longs offset values => exact (coded_values reads_int64).map (DataItem.longs offset)
  | array offset typeId length =>
    exact coded_words typeId.toUInt32 length.toUInt32
      fun v w => DataItem.array offset v.toInt32 w.toInt32
  | index offset element =>
    have hwords := coded_words (Int32.ofInt offset).toUInt32 element.toUInt32
      fun v w => DataItem.index v.toInt32.toInt w.toInt32
    have hoffset : (Int32.ofInt offset).toUInt32.toInt32.toInt = offset := toInt_ofInt_of_encodable h
    rw [hoffset] at hwords
    exact hwords
  | pop => exact ⟨[], rfl, reads_pure _⟩

theorem DataKind.code_range (kind : DataKind) : 0 < kind.code ∧ kind.code < 9 := by
  cases kind <;> simp [code]

theorem DataItem.count_of_le {item : DataItem} (h : (item.size : Int) ≤ operandMax) :
    item.count = item.size :=
  toInt32_of_le h

/-- **An item is read back,** with its count in the first byte or after it. -/
theorem coded_item {item : DataItem} (h : item.Storable) :
    Coded Anything item.encode DataItem.read? (some item) := by
  have hrest : Coded Anything (joinChunks [encodeOperand item.offset, .ok item.payload]) (do
      let offset ← readOperand .dataOffset
      return some (← DataItem.readPayload item.kind item.size offset)) (some item) :=
    (coded_operand h.offset .dataOffset).cons ((coded_payload h.offset).cons (coded_nil _))
  obtain ⟨hcode, hcode'⟩ := item.kind.code_range
  have hcount := DataItem.count_of_le h.size
  unfold DataItem.encode DataItem.header
  rw [hcount]
  by_cases hsmall : (0 : Int) < item.size ∧ (item.size : Int) < 16
  · rw [if_pos hsmall, Int.toNat_natCast]
    have hbyte : (UInt8.ofNat (16 * item.kind.code + item.size)).toNat
        = 16 * item.kind.code + item.size := by
      rw [UInt8.toNat_ofNat']
      omega
    have hkind : (16 * item.kind.code + item.size) / 16 = item.kind.code := by omega
    have hsize : (16 * item.kind.code + item.size) % 16 = item.size := by omega
    refine (coded_byte _ .dataItem).cons ?_
    rw [hbyte, if_neg (by omega), hkind, DataKind.ofCode?_code, hsize]
    simp only [if_neg (show item.size ≠ 0 by omega), pure_bind]
    exact hrest
  · rw [if_neg hsmall, joinChunks_cons_joinChunks]
    have hbyte : (UInt8.ofNat (16 * item.kind.code)).toNat = 16 * item.kind.code := by
      rw [UInt8.toNat_ofNat']
      omega
    have hkind : 16 * item.kind.code / 16 = item.kind.code := by omega
    have hmod : 16 * item.kind.code % 16 = 0 := by omega
    have hnumber := coded_count h.size .dataItem
    unfold countChunk at hnumber
    rw [toInt32_of_le h.size] at hnumber
    refine (coded_byte _ .dataItem).cons ?_
    rw [hbyte, if_neg (by omega), hkind, DataKind.ofCode?_code, hmod]
    simp only [if_true]
    exact hnumber.cons hrest

/-- An item takes at least one byte. -/
theorem length_pos_of_reads {bytes : Bytes} {item : DataItem}
    (h : Reads Anything DataItem.read? bytes (some item)) : 0 < bytes.length := by
  cases bytes with
  | nil => exact nomatch h 0 [] trivial
  | cons byte bytes => simp

/-- Items up to the end of the section. -/
theorem coded_items {items : List DataItem} (h : ∀ item ∈ items, item.Storable) :
    ∃ bytes, joinChunks (items.map DataItem.encode ++ [.ok [0]]) = .ok bytes ∧
      items.length < bytes.length ∧
      ∀ fuel, items.length < fuel → Reads Anything (readItems fuel) bytes items := by
  induction items with
  | nil =>
    refine ⟨[0], rfl, by simp, fun fuel hfuel => ?_⟩
    obtain ⟨fuel, rfl⟩ := Nat.exists_eq_succ_of_ne_zero (Nat.ne_of_gt hfuel)
    intro position rest _
    rfl
  | cons item items ih =>
    obtain ⟨hitem, hitems⟩ := List.forall_mem_cons.mp h
    obtain ⟨front, hfront, hreads⟩ := coded_item hitem
    obtain ⟨back, hback, hlength, hreads'⟩ := ih hitems
    have hpos := length_pos_of_reads hreads
    refine ⟨front ++ back, joinChunks_cons_ok hfront hback, ?_, fun fuel hfuel => ?_⟩
    · rw [List.length_cons, List.length_append]
      omega
    · rw [List.length_cons] at hfuel
      obtain ⟨fuel, rfl⟩ := Nat.exists_eq_succ_of_ne_zero (show fuel ≠ 0 by omega)
      exact hreads.bind ((hreads' fuel (by omega)).map (item :: ·))

/-- **The data section is read back.** -/
theorem coded_data {items : List DataItem} (h : ∀ item ∈ items, item.Storable) :
    Coded Anything (joinChunks (items.map DataItem.encode ++ [.ok [0]])) readData items := by
  obtain ⟨bytes, hbytes, hlength, hreads⟩ := coded_items h
  refine ⟨bytes, hbytes, fun position rest hrest => ?_⟩
  refine hreads ((bytes ++ rest).length + 1) ?_ position rest hrest
  rw [List.length_append]
  omega

theorem yields_lift {α : Type} (x : Except ReadError α) :
    Yields (liftM x : Reader α) fun a => x = .ok a := by
  intro c a c' h
  cases x with
  | error e => cases h
  | ok b => cases h; rfl

/-- As many values are read as were announced. -/
theorem yields_payload (kind : DataKind) {count : Nat} (offset : Int) (h : (count : Int) ≤ operandMax) :
    Yields (DataItem.readPayload kind count offset) fun item => (item.size : Int) ≤ operandMax := by
  have hlist {α : Type} (read : Reader α) (make : List α → DataItem)
      (hmake : ∀ xs, (make xs).size = xs.length) :
      Yields (readList count read >>= fun xs => pure (make xs))
        fun item => (item.size : Int) ≤ operandMax := by
    have hread : Yields read fun _ => True := fun _ _ _ _ => trivial
    refine (yields_list hread count).bind fun xs hxs => yields_pure ?_
    rw [hmake, hxs.1]
    exact h
  have hone : ((1 : Nat) : Int) ≤ operandMax := by decide
  cases kind with
  | bytes =>
    refine (yields_bytes count _).bind fun bytes hbytes => yields_pure ?_
    rw [← hbytes] at h
    exact h
  | words => exact hlist readWord (.words offset) fun _ => rfl
  | reals => exact hlist _ (.reals offset) fun _ => rfl
  | longs => exact hlist _ (.longs offset) fun _ => rfl
  | string =>
    refine Yields.after fun c => (yields_bytes count _).bind fun bytes hbytes =>
      (yields_lift _).bind fun s hs => yields_pure ?_
    rw [← hbytes, textOf_ok_iff.mp hs, length_textBytes] at h
    exact h
  | array => exact Yields.after fun _ => Yields.after fun _ => yields_pure hone
  | index => exact Yields.after fun _ => Yields.after fun _ => yields_pure hone
  | pop => exact yields_pure hone

/-- What is known of every payload is known of every item. -/
theorem yields_item {Q : DataItem → Prop}
    (h : ∀ kind (count : Nat) offset, (count : Int) ≤ operandMax → Encodable offset →
      Yields (DataItem.readPayload kind count offset) Q) :
    Yields DataItem.read? fun item? => ∀ item ∈ item?, Q item := by
  refine Yields.after fun header => ?_
  by_cases hend : header = 0
  · rw [if_pos hend]
    exact yields_pure (by simp)
  rw [if_neg hend]
  cases hkind : DataKind.ofCode? (header / 16) with
  | none => exact yields_throw _
  | some kind =>
    have htail (count : Nat) (hcount : (count : Int) ≤ operandMax) : Yields (do
        let offset ← readOperand .dataOffset
        return some (← DataItem.readPayload kind count offset))
        fun item? => ∀ item ∈ item?, Q item := by
      refine (yields_operand _).bind fun offset hoffset =>
        (h kind count offset hcount hoffset).bind fun item hitem => ?_
      exact yields_pure (by simpa using hitem)
    by_cases hlong : header % 16 = 0
    · simp only [if_pos hlong]
      exact (yields_count _).bind htail
    · simp only [if_neg hlong, pure_bind]
      apply htail
      unfold operandMax
      omega

/-- What is known of every item is known of the items of the data section. -/
theorem yields_data {Q : DataItem → Prop}
    (h : Yields DataItem.read? fun item? => ∀ item ∈ item?, Q item) :
    Yields readData fun items => ∀ item ∈ items, Q item := by
  refine Yields.after fun c => ?_
  generalize c.rest.length + 1 = fuel
  induction fuel with
  | zero => exact Yields.after fun _ => yields_throw _
  | succ fuel ih =>
    refine h.bind fun item? hitem => ?_
    cases item? with
    | none => exact yields_pure (by simp)
    | some item =>
      refine ih.bind fun items hitems => yields_pure (List.forall_mem_cons.mpr ⟨?_, hitems⟩)
      exact hitem item rfl

/-- The elements of every item that is read can be counted. -/
theorem yields_sizes :
    Yields readData fun items => ∀ item ∈ items, (item.size : Int) ≤ operandMax :=
  yields_data (yields_item fun kind _ offset hcount _ => yields_payload kind offset hcount)

/-! ## Links and imports -/

/-- The numbers of the link fit, and its name ends where it is seen to end. -/
@[mk_iff]
structure Link.Storable (l : Link) : Prop where
  pc : Encodable l.pc
  typeId : Encodable l.typeId
  name : NulFree l.name

instance (l : Link) : Decidable l.Storable :=
  decidable_of_iff' _ (Link.storable_iff l)

theorem coded_word (w : UInt32) : Coded Anything (wordChunk w) readWord w :=
  ⟨wordBytesOf w, rfl, reads_word w⟩

theorem coded_link {l : Link} (h : l.Storable) : Coded Anything l.encode Link.read l :=
  (coded_operand h.pc .linkPc).cons ((coded_operand h.typeId .linkType).cons
    ((coded_word l.signature).cons ((coded_text h.name).cons (coded_nil l))))

theorem yields_link : Yields Link.read Link.Storable := by
  refine (yields_operand _).bind fun pc hpc => (yields_operand _).bind fun typeId htypeId =>
    Yields.after fun signature => yields_text.bind fun name hname => yields_pure ?_
  exact ⟨hpc, htypeId, hname⟩

/-- The imports of the group can be counted, and their names end where they are seen to end. -/
@[mk_iff]
structure ImportGroup.Storable (group : List Import) : Prop where
  length : (group.length : Int) ≤ operandMax
  names : ∀ i ∈ group, NulFree i.name

instance (group : List Import) : Decidable (ImportGroup.Storable group) :=
  decidable_of_iff' _ (ImportGroup.storable_iff group)

theorem coded_import {i : Import} (h : NulFree i.name) : Coded Anything i.encode Import.read i :=
  (coded_word i.signature).cons ((coded_text h).cons (coded_nil i))

theorem coded_importGroup {group : List Import} (h : ImportGroup.Storable group) :
    Coded Anything (encodeImportGroup group) readImportGroup group :=
  (coded_count h.length .imported).cons (coded_list fun i hi => coded_import (h.names i hi))

theorem yields_importGroup : Yields readImportGroup ImportGroup.Storable := by
  have himport : Yields Import.read fun i => NulFree i.name :=
    Yields.after fun signature => yields_text.bind fun name hname => yields_pure hname
  refine (yields_count _).bind fun count hcount => ?_
  intro c group c' h
  obtain ⟨hlength, hnames⟩ := yields_list himport count c group c' h
  exact ⟨by rw [hlength]; exact hcount, hnames⟩

/-! ## Handlers -/

/-- The numbers of the handler fit, its names end where they are seen to end, and there is room in one
number for both its scope and the number of its cases. -/
@[mk_iff]
structure Handler.Storable (h : Handler) : Prop where
  exceptionOffset : Encodable h.exceptionOffset
  pc1 : Encodable h.pc1
  pc2 : Encodable h.pc2
  typeId : Encodable h.typeId
  wildcardPc : Encodable h.wildcardPc
  cases : ∀ c ∈ h.cases, NulFree c.name ∧ Encodable c.pc
  /-- The number of cases has sixteen bits of a number. -/
  length : h.cases.length < 65536
  /-- The scope has the other fourteen. -/
  scope : -8192 ≤ h.scope ∧ h.scope ≤ 8191

instance (h : Handler) : Decidable h.Storable :=
  decidable_of_iff' _ (Handler.storable_iff h)

/-- The two halves do not meet: the labels are their sum. -/
theorem Handler.packedLabels_eq {h : Handler} (hs : h.Storable) :
    h.packedLabels = h.scope * 65536 + h.cases.length := by
  obtain ⟨hlow, hhigh⟩ := hs.scope
  have hlength := hs.length
  have hdisjoint : BitVec.ofNat 32 h.cases.length &&& BitVec.ofInt 32 h.scope <<< 16 = 0#32 := by
    ext i hi
    have hbit : i < 16 ∨ (BitVec.ofNat 32 h.cases.length)[i] = false := by
      by_cases hi16 : i < 16
      · exact .inl hi16
      · have hpow : 2 ^ 16 ≤ 2 ^ i := Nat.pow_le_pow_right (by decide) (by omega)
        rw [BitVec.getElem_eq_testBit_toNat, BitVec.toNat_ofNat, Nat.mod_eq_of_lt (by omega)]
        exact .inr (Nat.testBit_lt_two_pow (by omega))
    rcases hbit with hbit | hbit <;> simp [hbit]
  have hshift : BitVec.ofInt 32 h.scope <<< 16 = BitVec.ofInt 32 (h.scope * 65536) := by
    rw [BitVec.shiftLeft_eq_mul_twoPow, BitVec.ofInt_mul]
    rfl
  unfold packedLabels
  rw [← BitVec.add_eq_or_of_and_eq_zero _ _ hdisjoint, hshift, ← BitVec.ofInt_natCast,
    ← BitVec.ofInt_add, BitVec.toInt_ofInt]
  rw [Int.bmod_eq_of_le] <;> omega

theorem Handler.Storable.encodable_packedLabels {h : Handler} (hs : h.Storable) :
    Encodable h.packedLabels := by
  obtain ⟨hlow, hhigh⟩ := hs.scope
  have hlength := hs.length
  rw [Handler.packedLabels_eq hs]
  unfold Encodable operandMin operandMax
  omega

theorem coded_case {c : ExceptionCase} (h : NulFree c.name ∧ Encodable c.pc) :
    Coded Anything c.encode ExceptionCase.read c :=
  (coded_text h.1).cons ((coded_operand h.2 .exceptionPc).cons (coded_nil c))

theorem coded_handler {h : Handler} (hs : h.Storable) : Coded Anything h.encode Handler.read h := by
  have hcases : Coded Anything (joinChunks (h.cases.map ExceptionCase.encode))
      (readList h.cases.length ExceptionCase.read) h.cases :=
    coded_list fun c hc => coded_case (hs.cases c hc)
  have hlength := hs.length
  have hlow : (h.packedLabels % 65536).toNat = h.cases.length := by
    rw [Handler.packedLabels_eq hs]
    omega
  have hhigh : h.packedLabels / 65536 = h.scope := by
    rw [Handler.packedLabels_eq hs]
    omega
  unfold Handler.encode
  rw [List.append_assoc]
  refine (coded_operand hs.exceptionOffset .handlerExceptionOffset).cons
    ((coded_operand hs.pc1 .handlerRange).cons ((coded_operand hs.pc2 .handlerRange).cons
    ((coded_operand hs.typeId .handlerType).cons
    ((coded_operand hs.encodable_packedLabels .handlerLabels).cons ?_))))
  rw [hlow, hhigh]
  exact hcases.append ((coded_operand hs.wildcardPc .handlerWildcard).cons (coded_nil h))

theorem yields_handler : Yields Handler.read Handler.Storable := by
  have hcase : Yields ExceptionCase.read fun c => NulFree c.name ∧ Encodable c.pc :=
    yields_text.bind fun name hname => (yields_operand _).bind fun pc hpc => yields_pure ⟨hname, hpc⟩
  refine (yields_operand _).bind fun exceptionOffset hexceptionOffset =>
    (yields_operand _).bind fun pc1 hpc1 => (yields_operand _).bind fun pc2 hpc2 =>
    (yields_operand _).bind fun typeId htypeId => (yields_operand _).bind fun labels hlabels =>
    (yields_list hcase _).bind fun cases hcases =>
    (yields_operand _).bind fun wildcardPc hwildcardPc => yields_pure ?_
  obtain ⟨hmin, hmax⟩ := hlabels
  unfold operandMin at hmin
  unfold operandMax at hmax
  have hlength : cases.length < 65536 := by
    rw [hcases.1]
    omega
  have hscope : -8192 ≤ labels / 65536 ∧ labels / 65536 ≤ 8191 := by omega
  exact ⟨hexceptionOffset, hpc1, hpc2, htypeId, hwildcardPc, hcases.2, hlength, hscope⟩

end DisBackend
