import DisBackend.Proofs.Lowering.Layout
import DisBackend.Proofs.Lowering.Typing

/-!
# `Proofs.Lowering.Slots` — every value has a word of its own

The values of a function get the words after the frame header, in the order of their types. So a value's
number in that list gives its offset, parameters lie where a caller puts arguments, no two values share a
word, and what is allocated later lies behind all of them.

## Contents

* `wordOffset_injective` and the bounds of offsets;
* `FrameWord` — the words of a frame;
* `assignSlots_ok` — the words in order;
* `Lowering.slot_at`, `Lowering.slot_injective`, `Lowering.parameter_slot` — the slots of a function;
* `Lowering.slot_type` — a slot has the type of its value.
-/

namespace DisBackend

open Ssa (BlockId Function Instr Ty ValueId)

/-! ## Offsets -/

theorem wordOffset_zero (base : Int) : wordOffset base 0 = base := Int.add_zero base

theorem wordOffset_injective {base : Int} {m n : Nat} (h : wordOffset base m = wordOffset base n) :
    m = n := by
  unfold wordOffset wordBytes at h
  omega

theorem wordOffset_lt_iff {base : Int} {m n : Nat} : wordOffset base m < wordOffset base n ↔ m < n := by
  unfold wordOffset wordBytes
  omega

theorem le_wordOffset (base : Int) (n : Nat) : base ≤ wordOffset base n := by
  unfold wordOffset wordBytes
  omega

/-- The words of the frame lie behind its header, and so behind the return slot. -/
theorem returnSlot_ne_wordOffset (n : Nat) : returnSlot ≠ wordOffset headerBytes n := by
  have hle := le_wordOffset headerBytes n
  unfold returnSlot headerBytes at *
  omega

/-! ## Words of a frame -/

/-- There is one of the first `count` words after the header at `offset`. -/
def FrameWord (count : Nat) (offset : Int) : Prop := ∃ k < count, offset = wordOffset headerBytes k

theorem FrameWord.mono {m n : Nat} {offset : Int} (h : FrameWord m offset) (hmn : m ≤ n) :
    FrameWord n offset := by
  obtain ⟨k, hk, ho⟩ := h
  exact ⟨k, Nat.lt_of_lt_of_le hk hmn, ho⟩

theorem FrameWord.lt {f : Frame} {offset : Int} (h : FrameWord f.words.length offset) :
    offset < f.size := by
  obtain ⟨k, hk, rfl⟩ := h
  exact wordOffset_lt_iff.mpr hk

/-- No word after the header is the return slot. -/
theorem FrameWord.ne_returnSlot {count : Nat} {offset : Int} (h : FrameWord count offset) :
    returnSlot ≠ offset := by
  obtain ⟨k, -, rfl⟩ := h
  exact returnSlot_ne_wordOffset k

/-! ## Assignment -/

theorem assignSlots_ok {frame frame' : Frame} {types : Typing} {slots : List (ValueId × Slot)}
    (h : assignSlots frame types = .ok (slots, frame')) :
    frame'.words = frame.words ++ types.map (·.2.isPointer) ∧
      slots = types.mapIdx fun k p =>
        (p.1, ⟨wordOffset headerBytes (frame.words.length + k), p.2⟩) := by
  induction types generalizing frame frame' slots with
  | nil => cases h; simp
  | cons p types ih =>
    obtain ⟨v, ty⟩ := p
    simp only [assignSlots, except_bind_ok_iff, except_pure_ok_iff] at h
    obtain ⟨⟨offset, frame₁⟩, hallocate, ⟨slots₁, frame₂⟩, hrest, he⟩ := h
    obtain ⟨-, rfl, rfl⟩ := Frame.allocate_ok_iff.mp hallocate
    obtain ⟨hwords, rfl⟩ := ih hrest
    cases he
    refine ⟨by rw [hwords]; simp, ?_⟩
    rw [List.mapIdx_cons]
    refine List.cons_eq_cons.mpr ⟨rfl, List.ext_getElem? fun k => ?_⟩
    have hk : (frame.words ++ [ty.isPointer]).length + k = frame.words.length + (k + 1) := by
      rw [List.length_append, List.length_singleton]
      omega
    simp only [List.getElem?_mapIdx, hk]

/-- In a list without repeated keys every entry is the one that is found. -/
theorem Typing.lookup_of_getElem? {types : Typing} (hnodup : types.values.Nodup) {k : Nat} {v : ValueId}
    {ty : Ty} (h : types[k]? = some (v, ty)) : types.lookup v = some ty := by
  induction types generalizing k with
  | nil => simp at h
  | cons p types ih =>
    rw [Typing.values, List.map_cons, List.nodup_cons] at hnodup
    cases k with
    | zero =>
      simp only [List.getElem?_cons_zero, Option.some.injEq] at h
      rw [h, List.lookup_cons_self]
    | succ k =>
      have hmem : v ∈ types.map Prod.fst :=
        List.mem_map.mpr ⟨(v, ty), List.mem_of_getElem? h, rfl⟩
      have hne : v ≠ p.1 := fun he => hnodup.1 (he ▸ hmem)
      have hbeq : (v == p.1) = false := by simpa using hne
      rw [List.lookup_cons, hbeq]
      exact ih hnodup.2 h

namespace Lowering

variable {f : Function} {c c' : Context} {fragment : Fragment} (L : Lowering f c fragment c')

theorem wellTyped : WellTyped c f L.types := valueTypes_ok L.typed

theorem slots_eq :
    L.slots = L.types.mapIdx fun k p => (p.1, ⟨wordOffset headerBytes k, p.2⟩) := by
  have h := (assignSlots_ok L.assigned).2
  simpa using h

theorem words_frame : L.frame.words = L.types.map (·.2.isPointer) := by
  have h := (assignSlots_ok L.assigned).1
  simpa using h

/-- **The slot of a value lies at its number in the list of types.** -/
theorem slot_at {v : ValueId} {slot : Slot} (h : L.slots.lookup v = some slot) :
    ∃ k, L.types[k]? = some (v, slot.ty) ∧ slot.offset = wordOffset headerBytes k := by
  obtain ⟨k, hk⟩ := getElem?_of_lookup h
  rw [L.slots_eq, List.getElem?_mapIdx] at hk
  obtain ⟨p, hp, he⟩ := Option.map_eq_some_iff.mp hk
  cases he
  exact ⟨k, hp, rfl⟩

theorem slot_type {v : ValueId} {slot : Slot} (h : L.slots.lookup v = some slot) :
    L.types.lookup v = some slot.ty := by
  obtain ⟨k, hk, -⟩ := L.slot_at h
  exact Typing.lookup_of_getElem? L.wellTyped.nodup hk

theorem slot_of_getElem? {k : Nat} {v : ValueId} {ty : Ty} (h : L.types[k]? = some (v, ty)) :
    L.slots.lookup v = some ⟨wordOffset headerBytes k, ty⟩ := by
  have hk : L.slots[k]? = some (v, ⟨wordOffset headerBytes k, ty⟩) := by
    rw [L.slots_eq, List.getElem?_mapIdx, h]; rfl
  cases hv : L.slots.lookup v with
  | none =>
    have hmem : (v, ⟨wordOffset headerBytes k, ty⟩) ∈ L.slots := List.mem_of_getElem? hk
    simpa using List.lookup_eq_none_iff.mp hv _ hmem
  | some slot =>
    -- the entry that is found has the same number, since no value occurs twice
    obtain ⟨j, hj, ho⟩ := L.slot_at hv
    have hjk : j = k := by
      have hjv : L.types.values[j]? = some v := by rw [Typing.values, List.getElem?_map, hj]; rfl
      have hkv : L.types.values[k]? = some v := by rw [Typing.values, List.getElem?_map, h]; rfl
      have hlt := (List.getElem?_eq_some_iff.mp hjv).1
      exact (List.getElem?_inj hlt L.wellTyped.nodup).mp (hjv.trans hkv.symm)
    subst hjk
    rw [h] at hj
    cases slot
    simp only [Option.some.injEq, Prod.mk.injEq, true_and] at hj ho ⊢
    rw [ho, hj]

/-- **Different values have different words.** -/
theorem slot_injective {v w : ValueId} {a b : Slot} (hv : L.slots.lookup v = some a)
    (hw : L.slots.lookup w = some b) (h : a.offset = b.offset) : v = w := by
  obtain ⟨j, hj, ha⟩ := L.slot_at hv
  obtain ⟨k, hk, hb⟩ := L.slot_at hw
  have hjk : j = k := wordOffset_injective (ha.symm.trans (h.trans hb))
  subst hjk
  rw [hj] at hk
  simp only [Option.some.injEq, Prod.mk.injEq] at hk
  exact hk.1

/-- The slots are the first words of the frame. -/
theorem slot_frameWord {v : ValueId} {slot : Slot} (h : L.slots.lookup v = some slot) :
    FrameWord L.frame.words.length slot.offset := by
  obtain ⟨k, hk, ho⟩ := L.slot_at h
  refine ⟨k, ?_, ho⟩
  rw [L.words_frame, List.length_map]
  exact (List.getElem?_eq_some_iff.mp hk).1

/-- **A parameter lies where a caller puts the argument.** -/
theorem parameter_slot {k : Nat} {ty : Ty} (h : f.parameters[k]? = some ty) :
    L.slots.lookup ⟨k⟩ = some ⟨wordOffset headerBytes k, ty⟩ := by
  apply L.slot_of_getElem?
  apply getElem?_of_prefix L.wellTyped.parameters
  rw [getElem?_parameterValues, h]
  rfl

/-- The slot of a result has the type of the result. -/
theorem slot_result {i : Instr} {dst : ValueId} {ty : Ty} {slot : Slot} (hi : i ∈ f.instructions)
    (htype : resultType c i = .ok (some (dst, ty))) (hslot : L.slots.lookup dst = some slot) :
    slot.ty = ty := by
  have hcovers := L.wellTyped.covers i hi
  cases i with
  | math dst' op lhs rhs => cases htype
  | _ =>
    obtain ⟨r, hr, hlookup⟩ := hcovers
    rw [htype] at hr
    have hty := hlookup dst ty (Except.ok.inj hr).symm
    rw [L.slot_type hslot] at hty
    exact Option.some.inj hty

/-- The slot of an operation's result has the type of the left operand. -/
theorem slot_math {op : Ssa.MathOp} {dst lhs rhs : ValueId} {d l : Slot}
    (hi : Instr.math dst op lhs rhs ∈ f.instructions) (hdst : L.slots.lookup dst = some d)
    (hlhs : L.slots.lookup lhs = some l) : d.ty = l.ty := by
  obtain ⟨ty, hl, hd⟩ := L.wellTyped.covers _ hi
  rw [L.slot_type hlhs] at hl
  rw [L.slot_type hdst] at hd
  exact Option.some.inj (hd.trans hl.symm)

/-- The slot of the value of a global has the type of the global. -/
theorem slot_global {dst : ValueId} {name : String} {slot : Slot} {global : GlobalSlot} {t : State}
    (hi : Instr.loadGlobal dst name ∈ f.instructions) (hslot : L.slots.lookup dst = some slot)
    (hgrows : L.first.Grows t) (hglobal : t.context.global? name = some global) :
    slot.ty = global.ty := by
  cases hfound : c.global? name with
  | none =>
    obtain ⟨r, hr, -⟩ := L.wellTyped.covers _ hi
    simp only [resultType, globalType, hfound] at hr
    cases hr
  | some global' =>
    have hsame := hgrows.context.global? hfound
    rw [hglobal] at hsame
    cases hsame
    refine L.slot_result hi ?_ hslot
    simp only [resultType, globalType, hfound]
    rfl

end Lowering
end DisBackend
