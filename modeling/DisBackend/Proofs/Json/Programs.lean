import DisBackend.Proofs.Json.Edits
import DisBackend.Proofs.Lists
import DisBackend.Ssa.Json

/-!
# `Proofs.Json.Programs` — programs that are written and read back

The numbers of values, blocks and fields are unsigned 64-bit numbers in JSON, and a real that is not
finite has no JSON form. All other programs are read back as they were written.

Each part is either read back or not, and a whole is read back if and only if its parts are.

## Contents

* `Fits`, `Instr.Portable`, …, `Program.Portable` — programs that have a JSON form;
* `asList?_listJson`, `asOption?_optionJson`, `asRecord?_own` — lists, options and records;
* `Constant.ofJson?_toJson`, `Instr.ofJson?_toJson`, …, `Program.ofJson?_toJson` — parts and the whole.
-/

namespace DisBackend.Ssa

open Json (Value Record)

/-! ## Programs that have a JSON form -/

/-- The number fits 64 bits. -/
def Fits (n : Nat) : Prop := n < 18446744073709551616

/-- The number of the value fits. -/
def ValueId.Portable (v : ValueId) : Prop := Fits v.index

/-- The number of the block fits. -/
def BlockId.Portable (b : BlockId) : Prop := Fits b.index

/-- A real is finite. -/
def Constant.Portable : Constant → Prop
  | .real value => value.isFinite
  | _ => True

/-- The numbers of the edge fit. -/
def PhiEdge.Portable (e : PhiEdge) : Prop := e.block.Portable ∧ e.value.Portable

/-- All numbers of the instruction fit, and a real constant is finite. -/
def Instr.Portable : Instr → Prop
  | .const dst value => dst.Portable ∧ value.Portable
  | .math dst _ lhs rhs | .compare dst _ lhs rhs => dst.Portable ∧ lhs.Portable ∧ rhs.Portable
  | .phi dst _ incoming => dst.Portable ∧ ∀ e ∈ incoming, e.Portable
  | .loadGlobal dst _ | .new dst _ => dst.Portable
  | .storeGlobal _ value => value.Portable
  | .loadField dst _ object field => dst.Portable ∧ object.Portable ∧ Fits field
  | .storeField object field value => object.Portable ∧ Fits field ∧ value.Portable
  | .call dst _ arguments | .callNative dst _ arguments =>
    (∀ v ∈ dst, v.Portable) ∧ ∀ v ∈ arguments, v.Portable
  | .jump target => target.Portable
  | .branch condition thenBlock elseBlock =>
    condition.Portable ∧ thenBlock.Portable ∧ elseBlock.Portable
  | .ret value => ∀ v ∈ value, v.Portable

/-- All instructions have a JSON form. -/
def Program.Portable (p : Program) : Prop :=
  ∀ f ∈ p.functions, ∀ b ∈ f.blocks, ∀ i ∈ b.instructions, i.Portable

/-! ## Lists, options and records -/

section Combinators

variable {α : Type} {write : α → Value} {read : Value → Option α}

theorem asList?_listJson (xs : List α) :
    Value.asList? read (listJson write xs) = some xs ↔ ∀ x ∈ xs, read (write x) = some x := by
  show (xs.map write).mapM read = some xs ↔ _
  induction xs with
  | nil => simp
  | cons x xs ih =>
    rw [List.map_cons, List.mapM_cons, List.forall_mem_cons, ← ih]
    simp [Option.bind_eq_some_iff]

/-- What is written must not be mistaken for nothing. -/
theorem asOption?_optionJson (h : ∀ x, write x ≠ .null) (x? : Option α) :
    Value.asOption? read (optionJson write x?) = some x? ↔ ∀ x ∈ x?, read (write x) = some x := by
  cases x? with
  | none => simp [optionJson, Value.asOption?]
  | some x => simp [optionJson, Value.asOption?, h]

/-- An object without other fields. -/
theorem asRecord?_own (entries : List (String × Value)) (h : (entries.map Prod.fst).Nodup) :
    (Value.object entries).asRecord? (entries.map Prod.fst) = some entries := by
  refine Json.asRecord?_object_iff.mpr ⟨fun name _ => List.nodup_iff_count_le_one.mp h name, ?_⟩
  exact List.filter_eq_self.mpr fun entry hentry => List.contains_iff_mem.mpr (List.mem_map_of_mem hentry)

@[simp]
theorem required_head {name : String} {v : Value} {r : Record} :
    Record.required ((name, v) :: r) name read = read v := by
  unfold Record.required
  rw [List.lookup_cons_self, Option.bind_some]

@[simp]
theorem required_tail {name other : String} {v : Value} {r : Record} (h : name ≠ other) :
    Record.required ((other, v) :: r) name read = Record.required r name read := by
  unfold Record.required
  rw [List.lookup_cons, beq_eq_false_iff_ne.mpr h]

@[simp]
theorem optional_head {name : String} {v : Value} {r : Record} {default : α} :
    Record.optional ((name, v) :: r) name default read = read v := by
  unfold Record.optional
  rw [List.lookup_cons_self]

@[simp]
theorem optional_tail {name other : String} {v : Value} {r : Record} {default : α} (h : name ≠ other) :
    Record.optional ((other, v) :: r) name default read = Record.optional r name default read := by
  unfold Record.optional
  rw [List.lookup_cons, beq_eq_false_iff_ne.mpr h]

/-- A thing by its name. -/
theorem named?_name {braces : Bool} {all : List α} {name : α → String} (hnodup : (all.map name).Nodup)
    {x y : α} (h : x ∈ all) : named? braces all name (.string (name x)) = some y ↔ x = y := by
  have hfind : named? braces all name (.string (name x)) = some x := find?_of_nodup_map hnodup h
  rw [hfind, Option.some.injEq]

end Combinators

/-! ## Parts of an instruction

What is read is compared with what was written, and never computed: the bound of 64 bits does not unfold. -/

@[simp]
theorem asString?_string {s s' : String} : (Value.string s).asString? = some s' ↔ s = s' :=
  Option.some_inj

@[simp]
theorem asNat?_natJson {n : Nat} : (natJson n).asNat? = some n ↔ Fits n := by
  simp only [natJson, Value.asNat?, Fits, Option.ite_none_right_eq_some, Int.toNat_natCast, and_true]
  omega

@[simp]
theorem ValueId.ofJson?_toJson {v : ValueId} : ValueId.ofJson? v.toJson = some v ↔ v.Portable := by
  unfold Portable
  rw [← asNat?_natJson]
  show (natJson v.index).asNat?.map ValueId.mk = some v ↔ _
  rw [Option.map_eq_some_iff]
  exact ⟨by rintro ⟨n, hn, rfl⟩; exact hn, fun h => ⟨v.index, h, rfl⟩⟩

@[simp]
theorem BlockId.ofJson?_toJson {b : BlockId} : BlockId.ofJson? b.toJson = some b ↔ b.Portable := by
  unfold Portable
  rw [← asNat?_natJson]
  show (natJson b.index).asNat?.map BlockId.mk = some b ↔ _
  rw [Option.map_eq_some_iff]
  exact ⟨by rintro ⟨n, hn, rfl⟩; exact hn, fun h => ⟨b.index, h, rfl⟩⟩

theorem Ty.named?_toJson {braces : Bool} {ty ty' : Ty} :
    named? braces Ty.all Ty.name ty.toJson = some ty' ↔ ty = ty' :=
  named?_name (by decide) (by cases ty <;> decide)

@[simp]
theorem Ty.ofJson?_toJson {ty ty' : Ty} : Ty.ofJson? ty.toJson = some ty' ↔ ty = ty' := named?_toJson

@[simp]
theorem Ty.ofOperand?_toJson {ty ty' : Ty} : Ty.ofOperand? ty.toJson = some ty' ↔ ty = ty' := named?_toJson

@[simp]
theorem MathOp.ofJson?_name {op op' : MathOp} : MathOp.ofJson? (.string op.name) = some op' ↔ op = op' :=
  named?_name (by decide) (by cases op <;> decide)

@[simp]
theorem Comparison.ofJson?_name {op op' : Comparison} :
    Comparison.ofJson? (.string op.name) = some op' ↔ op = op' :=
  named?_name (by decide) (by cases op <;> decide)

theorem asInt64?_toInt (n : Int64) : (Value.int n.toInt).asInt64? = some n := by
  have hlow := n.le_toInt
  have hhigh := n.toInt_lt
  show ite _ _ _ = _
  rw [if_pos (by omega), Int64.ofInt_toInt]

@[simp]
theorem Constant.ofJson?_toJson {c : Constant} : Constant.ofJson? c.toJson = some c ↔ c.Portable := by
  cases c with
  | int value => simp [toJson, ofJson?, Portable, asInt64?_toInt]
  | real value =>
    by_cases h : value.isFinite <;> simp [toJson, ofJson?, Portable, Value.asDouble?, h]
  | bool value => simp [toJson, ofJson?, Portable, Value.asBool?]
  | string value => simp [toJson, ofJson?, Portable, Value.asString?]

@[simp]
theorem PhiEdge.ofJson?_toJson {e : PhiEdge} : PhiEdge.ofJson? e.toJson = some e ↔ e.Portable := by
  obtain ⟨block, value⟩ := e
  have hrecord : (PhiEdge.mk block value).toJson.asRecord? ["block", "value"] = some _ :=
    asRecord?_own [("block", block.toJson), ("value", value.toJson)] (by simp)
  unfold ofJson?
  rw [hrecord, Option.bind_eq_bind, Option.bind_some]
  simp [Option.bind_eq_some_iff, Portable]

/-! ## Instructions -/

namespace Instr

/-- The kind of an instruction determines its fields. -/
theorem fieldNames?_opName (i : Instr) : fieldNames? i.opName = some (i.fieldsJson.map Prod.fst) := by
  cases i <;> rfl

theorem nodup_fieldNames (i : Instr) : ("op" :: i.fieldsJson.map Prod.fst).Nodup := by
  cases i <;> simp [fieldsJson]

theorem split?_toJson (i : Instr) : split? i.toJson = some (i.opName, .object i.fieldsJson) := by
  obtain ⟨hop, -⟩ := List.nodup_cons.mp i.nodup_fieldNames
  have hother : ∀ entry ∈ i.fieldsJson, (entry.1 == "op") = false := by
    intro entry hentry
    refine beq_eq_false_iff_ne.mpr fun heq => hop ?_
    exact heq ▸ List.mem_map_of_mem hentry
  have hnone : i.fieldsJson.filter (·.1 == "op") = [] :=
    List.filter_eq_nil_iff.mpr fun entry hentry => by rw [hother entry hentry]; nofun
  have hall : i.fieldsJson.filter (not ∘ fun entry => entry.1 == "op") = i.fieldsJson :=
    List.filter_eq_self.mpr fun entry hentry => by simp [hother entry hentry]
  simp [split?, toJson, List.partition_eq_filter_filter, hnone, hall]

/-- An instruction is read by its fields. -/
theorem ofJson?_toJson_eq (i : Instr) : ofJson? i.toJson = ofRecord? i.opName i.fieldsJson := by
  have hrecord := asRecord?_own i.fieldsJson (List.nodup_cons.mp i.nodup_fieldNames).2
  simp [ofJson?, split?_toJson, fieldNames?_opName, hrecord]

theorem ofRecord?_fieldsJson (i : Instr) : ofRecord? i.opName i.fieldsJson = some i ↔ i.Portable := by
  have hoption (v? : Option ValueId) :
      Value.asOption? ValueId.ofJson? (optionJson ValueId.toJson v?) = some v? ↔ ∀ v ∈ v?, v.Portable := by
    rw [asOption?_optionJson nofun]
    simp only [ValueId.ofJson?_toJson]
  cases i <;>
    simp [ofRecord?, opName, fieldsJson, valueOf?, argumentsOf?, Portable, Option.bind_eq_some_iff,
      asList?_listJson, hoption]

@[simp]
theorem ofJson?_toJson {i : Instr} : ofJson? i.toJson = some i ↔ i.Portable := by
  rw [ofJson?_toJson_eq, ofRecord?_fieldsJson]

end Instr

/-! ## The whole -/

@[simp]
theorem Block.ofJson?_toJson {b : Block} :
    Block.ofJson? b.toJson = some b ↔ ∀ i ∈ b.instructions, i.Portable := by
  obtain ⟨instructions⟩ := b
  have hrecord : (Block.mk instructions).toJson.asRecord? Block.fieldNames = some _ :=
    asRecord?_own [("instructions", listJson Instr.toJson instructions)] (by simp)
  unfold ofJson?
  rw [hrecord, Option.bind_eq_bind, Option.bind_some]
  simp [Option.bind_eq_some_iff, asList?_listJson]

@[simp]
theorem Function.ofJson?_toJson {f : Function} :
    Function.ofJson? f.toJson = some f ↔ ∀ b ∈ f.blocks, ∀ i ∈ b.instructions, i.Portable := by
  obtain ⟨name, parameters, result, blocks⟩ := f
  have hrecord : (Function.mk name parameters result blocks).toJson.asRecord? Function.fieldNames = some _ :=
    asRecord?_own [("name", .string name), ("parameters", listJson Ty.toJson parameters),
      ("result", optionJson Ty.toJson result), ("blocks", listJson Block.toJson blocks)] (by simp)
  unfold ofJson?
  rw [hrecord, Option.bind_eq_bind, Option.bind_some]
  have hresult : Value.asOption? Ty.ofJson? (optionJson Ty.toJson result) = some result := by
    rw [asOption?_optionJson nofun]
    simp
  simp [Option.bind_eq_some_iff, asList?_listJson, hresult]

@[simp]
theorem Global.ofJson?_toJson {g : Global} : Global.ofJson? g.toJson = some g := by
  obtain ⟨name, ty⟩ := g
  have hrecord : (Global.mk name ty).toJson.asRecord? ["name", "ty"] = some _ :=
    asRecord?_own [("name", .string name), ("ty", ty.toJson)] (by simp)
  unfold ofJson?
  rw [hrecord, Option.bind_eq_bind, Option.bind_some]
  simp [Option.bind_eq_some_iff]

/-- **Exactly the portable programs survive their JSON form.** -/
theorem Program.ofJson?_toJson {p : Program} : Program.ofJson? p.toJson = some p ↔ p.Portable := by
  obtain ⟨sourcePath, entry, globals, functions⟩ := p
  have hrecord :
      (Program.mk sourcePath entry globals functions).toJson.asRecord? Program.fieldNames = some _ :=
    asRecord?_own [("source-path", .string sourcePath), ("entry", .string entry),
      ("globals", listJson Global.toJson globals), ("functions", listJson Function.toJson functions)]
      (by simp)
  unfold ofJson?
  rw [hrecord, Option.bind_eq_bind, Option.bind_some]
  simp [Option.bind_eq_some_iff, asList?_listJson, Portable]

end DisBackend.Ssa
