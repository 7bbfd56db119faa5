import DisBackend.Proofs.Faults.Lowering
import DisBackend.Proofs.Lowering.Inference

/-!
# `Proofs.Faults.Redefinition` — functions that define every value once

A value that is defined twice is found when the types of values are collected, and nowhere else: neither the
shape of the blocks nor the body has anything to say about it. A function in which every value has one
definition is never refused for a second one.

## Contents

* `failsFor_scan`, `failsFor_valueTypes` — collecting types;
* `notRedefinition_of_shapeFault?` — the shape of the blocks;
* `stopsFor_lowerFunction_of_nodup` — the whole.
-/

namespace DisBackend

open Ssa (Function Instr Ty ValueId)

section Types

variable {c : Context}

theorem failsFor_globalType (name : String) :
    FailsFor LowerError.NotRedefinition (globalType c name) := by
  unfold globalType
  split
  · exact .ok
  · exact .error trivial

theorem failsFor_callType (callee : String) :
    FailsFor LowerError.NotRedefinition (callType c callee) := by
  unfold callType
  split
  · exact .error trivial
  · split
    · exact .ok
    · exact .error trivial

theorem failsFor_nativeCallType (name : String) :
    FailsFor LowerError.NotRedefinition (nativeCallType name) := by
  unfold nativeCallType
  split
  · exact .error trivial
  · split
    · exact .ok
    · exact .error trivial

theorem failsFor_resultType (i : Instr) : FailsFor LowerError.NotRedefinition (resultType c i) := by
  cases i with
  | loadGlobal dst name => exact .map (failsFor_globalType name)
  | call dst callee arguments =>
    cases dst with
    | none => exact .ok
    | some dst => exact .map (failsFor_callType callee)
  | callNative dst function arguments =>
    cases dst with
    | none => exact .ok
    | some dst => exact .map (failsFor_nativeCallType function)
  | _ => exact .ok

/-- A new value can be defined. -/
theorem failsFor_define {types : Typing} {v : ValueId} {ty : Ty} (hnew : v ∉ types.values) :
    FailsFor LowerError.NotRedefinition (types.define v ty) := by
  rw [Typing.define_of_not_mem hnew]
  exact .ok

theorem failsFor_scanInstr {s : Scanned} {i : Instr}
    (hnew : ∀ dst, i.destination? = some dst → dst ∉ s.types.values) :
    FailsFor LowerError.NotRedefinition (scanInstr c s i) := by
  by_cases hdirect : i.IsDirect
  · rw [scanInstr_direct hdirect]
    refine .bind (failsFor_resultType i) fun r hr => ?_
    have hdest := destination?_of_resultType hdirect hr
    cases r with
    | none => exact .ok
    | some p => exact .map (failsFor_define (hnew p.1 hdest))
  · simp only [Instr.IsDirect, not_forall, not_not] at hdirect
    obtain ⟨dst, op, lhs, rhs, rfl⟩ := hdirect
    unfold scanInstr
    dsimp only
    split
    · exact .ite (fun _ => .ok) fun _ => .map (failsFor_define (hnew dst rfl))
    · exact .ok

/-- **The pass** meets no second definition if there is none. -/
theorem failsFor_scan {s : Scanned} {instrs : List Instr}
    (hnodup : (s.types.values ++ s.pending.map Pending.dst
      ++ instrs.filterMap Instr.destination?).Nodup) :
    FailsFor LowerError.NotRedefinition (scan c s instrs) := by
  induction instrs generalizing s with
  | nil => exact .ok
  | cons i rest ih =>
    refine .bind (failsFor_scanInstr (destination_not_mem hnodup)) fun t hi => ?_
    exact ih (nodup_of_scanInstr hi hnodup)

end Types

section Function

variable {f : Function}

theorem failsFor_valueTypes
    (hnodup : (f.parameterValues.map Prod.fst ++ f.instructions.filterMap Instr.destination?).Nodup)
    (c : Context) : FailsFor LowerError.NotRedefinition (valueTypes c f) := by
  intro e he
  cases hscan : scan c ⟨parameterTypes f, []⟩ f.instructions with
  | error e' =>
    have hpass : FailsFor LowerError.NotRedefinition (scan c ⟨parameterTypes f, []⟩ f.instructions) :=
      failsFor_scan (by rw [List.map_nil, List.append_nil]; exact hnodup)
    unfold valueTypes at he
    rw [hscan] at he
    cases he
    exact hpass e hscan
  | ok s =>
    -- after the pass, only a chain of left operands that does not end is refused
    have hends := (settlesTo_iff_valueTypes hscan _).mpr he
    rcases hends.outcome (.of_scan hscan hnodup) with ⟨_, hok, -⟩ | ⟨_, _, _, _, -, -, hv⟩
    · cases hok
    · cases hv
      trivial

theorem notRedefinition_of_fault? {count : Nat} {id : Ssa.BlockId} {b : Ssa.Block} {e : LowerError}
    (h : b.fault? count id = some e) : e.NotRedefinition := by
  unfold Ssa.Block.fault? at h
  split at h
  · cases h
    trivial
  · split at h
    · cases h
      trivial
    · split at h
      · cases h
        trivial
      · split at h
        · cases h
          trivial
        · obtain ⟨target, -, rfl⟩ := Option.map_eq_some_iff.mp h
          trivial

theorem notRedefinition_of_shapeFault? {e : LowerError} (h : f.shapeFault? = some e) :
    e.NotRedefinition := by
  unfold Ssa.Function.shapeFault? at h
  split at h
  · cases h
    trivial
  · obtain ⟨⟨b, index⟩, -, hb⟩ := List.exists_of_findSome?_eq_some h
    exact notRedefinition_of_fault? hb

/-- **A function in which every value has one definition** is not refused for a second one. -/
theorem stopsFor_lowerFunction_of_nodup
    (hnodup : (f.parameterValues.map Prod.fst ++ f.instructions.filterMap Instr.destination?).Nodup)
    (c : Context) : StopsFor Stop.IsOfBody (lowerFunction f) c := by
  intro stop c' h
  rcases lowerFunction_stop h with ⟨e, rfl, hshape | htypes⟩ | hbody
  · exact notRedefinition_of_shapeFault? hshape
  · exact failsFor_valueTypes hnodup c e htypes
  · exact hbody

end Function
end DisBackend
