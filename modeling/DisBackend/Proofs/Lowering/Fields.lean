import DisBackend.Proofs.Collector.Makers

/-!
# `Proofs.Lowering.Fields` — fields inside their objects

The fields of an object are known from the `new` on that makes it, and from there on every access is
checked against them. But functions are lowered block after block, in the order in which the blocks are
written, and control need not reach them in that order: an access may be written before the `new` of its
object. Of such an access nothing is checked but that its offset fits an operand.

## Contents

* `FieldUse`, `Instr.fieldUse?` — an access to a field, with its type;
* `FieldUse.Inside`, `Function.AccessesMade` — an access to an object that the function makes itself;
* `Emits.fieldAccess`, `Lowering.inside` — an access that is written after the `new` is checked;
* `lowerFunction_fields_inside` — which accesses stay inside their objects;
* `lowerFunction_fields_outside` — one that does not.
-/

namespace DisBackend

open Ssa (BlockId Function Instr Ty ValueId)

/-- An access to a field of an object. -/
structure FieldUse where
  object : ValueId
  field : Nat
  ty : Ty

/-- The access that an instruction is. A load says at which type, and a store has the type of the value. -/
def Ssa.Instr.fieldUse? (types : Typing) : Instr → Option FieldUse
  | .loadField _ ty object field => some ⟨object, field, ty⟩
  | .storeField object field value => (types.lookup value).map fun ty => ⟨object, field, ty⟩
  | _ => none

/-- There is such a field, and it is of that type. -/
def FieldUse.Inside (use : FieldUse) (fields : List Ty) : Prop :=
  use.field < fields.length ∧ fields[use.field]? = some use.ty

/-- Instruction number `q` accesses the object that instruction number `q'` makes. -/
structure Ssa.Function.AccessesMade (f : Function) (types : Typing) (q q' : Nat) (use : FieldUse)
    (fields : List Ty) : Prop where
  access : ∃ b i, f.numbered[q]? = some (b, i) ∧ i.fieldUse? types = some use
  made : ∃ b, f.numbered[q']? = some (b, .new use.object fields)

/-- **An access is checked against what is known of the object.** -/
theorem Emits.fieldAccess {env : Env} {types : Typing} {source : BlockId} {s s' : State} {i : Instr}
    {lines : List Line} {use : FieldUse} (h : Emits env source s i lines s')
    (htypes : ∀ v slot, env.slots.lookup v = some slot → types.lookup v = some slot.ty)
    (huse : i.fieldUse? types = some use) :
    ∃ base, FieldAccess env s use.object use.field use.ty base := by
  cases h with
  | loadField access =>
    cases huse
    exact ⟨_, access⟩
  | storeField value_slot access =>
    obtain ⟨ty, hty, rfl⟩ := Option.map_eq_some_iff.mp huse
    rw [htypes _ _ value_slot] at hty
    cases hty
    exact ⟨_, access⟩
  | _ => cases huse

/-- **An access that is written after the `new` of its object is inside.** -/
theorem Lowering.inside {f : Function} {c c' : Context} {fragment : Fragment} (L : Lowering f c fragment c')
    {q q' : Nat} {use : FieldUse} {fields : List Ty} (h : f.AccessesMade L.types q q' use fields)
    (hlt : q' < q) : use.Inside fields := by
  obtain ⟨T⟩ := L.trace
  obtain ⟨b, i, hi, huse⟩ := h.access
  obtain ⟨b', hnew⟩ := h.made
  have hq : q < f.numbered.length := (List.getElem?_eq_some_iff.mp hi).1
  have hpiece := List.getElem?_eq_getElem (L.length_numbered ▸ hq)
  obtain ⟨base, haccess⟩ := (T.emits q b i _ hi hpiece).fieldAccess (fun _ _ => L.slot_type) huse
  have hfield := haccess.known fields (T.objects hlt (Nat.le_of_lt hq) hnew)
  exact ⟨(List.getElem?_eq_some_iff.mp hfield).1, hfield⟩

/-- **Which accesses stay inside their objects.** In a function that was lowered, every access to an object
that the function makes itself is inside the object if it is written after the `new`. So all of them are if
and only if those are that are written before. -/
theorem lowerFunction_fields_inside {f : Function} {c c' : Context} {fragment : Fragment}
    (h : lowerFunction f c = .ok fragment c') :
    ∃ types, valueTypes c f = .ok types ∧
      (∀ q q' use fields, f.AccessesMade types q q' use fields → q' < q → use.Inside fields) ∧
      ((∀ q q' use fields, f.AccessesMade types q q' use fields → use.Inside fields) ↔
        ∀ q q' use fields, f.AccessesMade types q q' use fields → q < q' → use.Inside fields) := by
  obtain ⟨L⟩ := lowerFunction_lowering h
  refine ⟨L.types, L.typed, fun _ _ _ _ => L.inside,
    fun hall q q' use fields hmade _ => hall q q' use fields hmade, ?_⟩
  intro hbefore q q' use fields hmade
  rcases Nat.lt_trichotomy q q' with hlt | rfl | hgt
  · exact hbefore q q' use fields hmade hlt
  · -- a `new` accesses no field
    obtain ⟨⟨b, i, hi, huse⟩, b', hnew⟩ := hmade
    rw [hi] at hnew
    cases hnew
    cases huse
  · exact L.inside hmade hgt

/-! ## Blocks in the order of control, and not -/

/-- Makes a pair, reads its second field and writes it again. -/
def orderly : Function where
  name := "main"
  parameters := []
  result := none
  blocks := [⟨[.new ⟨0⟩ [.string, .int], .jump ⟨1⟩]⟩,
    ⟨[.loadField ⟨1⟩ .int ⟨0⟩ 1, .storeField ⟨0⟩ 1 ⟨1⟩, .ret none]⟩]

/-- The store of `orderly` is in another block than the `new`, and inside the pair. -/
theorem lowerFunction_fields_inside_orderly :
    ∃ fragment c' types,
      lowerFunction orderly (.initial ⟨"pair.b", "main", [], [orderly]⟩ #[]) = .ok fragment c' ∧
      valueTypes (.initial ⟨"pair.b", "main", [], [orderly]⟩ #[]) orderly = .ok types ∧
      orderly.AccessesMade types 3 0 ⟨⟨0⟩, 1, .int⟩ [.string, .int] ∧
      FieldUse.Inside ⟨⟨0⟩, 1, .int⟩ [.string, .int] := by
  have hlowered : lowerFunction orderly (.initial ⟨"pair.b", "main", [], [orderly]⟩ #[]) = .ok _ _ := rfl
  obtain ⟨types, htypes, hinside, -⟩ := lowerFunction_fields_inside hlowered
  have hvalue : types.lookup ⟨1⟩ = some .int := by
    cases htypes
    rfl
  have hmade : orderly.AccessesMade types 3 0 ⟨⟨0⟩, 1, .int⟩ [.string, .int] :=
    ⟨⟨_, .storeField ⟨0⟩ 1 ⟨1⟩, rfl, Option.map_eq_some_iff.mpr ⟨.int, hvalue, rfl⟩⟩, _, rfl⟩
  exact ⟨_, _, types, hlowered, htypes, hmade, hinside 3 0 _ _ hmade (by decide)⟩

/-- Reads a field of an object in a block that control reaches after the one that makes the object, and
that is written before it. The object has one field, and the sixth is read. -/
def lateNew : Function where
  name := "main"
  parameters := []
  result := none
  blocks := [⟨[.jump ⟨2⟩]⟩, ⟨[.loadField ⟨1⟩ .int ⟨0⟩ 5, .ret none]⟩, ⟨[.new ⟨0⟩ [.string], .jump ⟨1⟩]⟩]

/-- **`lateNew` is lowered although it reads beyond its object.** -/
theorem lowerFunction_fields_outside :
    ∃ fragment c' types,
      lowerFunction lateNew (.initial ⟨"t.go", "main", [], [lateNew]⟩ #[]) = .ok fragment c' ∧
      valueTypes (.initial ⟨"t.go", "main", [], [lateNew]⟩ #[]) lateNew = .ok types ∧
      lateNew.AccessesMade types 1 3 ⟨⟨0⟩, 5, .int⟩ [.string] ∧
      ¬ FieldUse.Inside ⟨⟨0⟩, 5, .int⟩ [.string] ∧
      fragment.code[1]? = some (.binary .movw (.fpIndirect 72 40) (.fp 64)) := by
  refine ⟨_, _, _, rfl, rfl, ⟨⟨_, _, rfl, rfl⟩, _, rfl⟩, ?_, rfl⟩
  rintro ⟨hlt, -⟩
  exact absurd hlt (by decide)

end DisBackend
