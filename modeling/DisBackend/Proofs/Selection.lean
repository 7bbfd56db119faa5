import DisBackend.Proofs.Distinct
import DisBackend.Proofs.Faults.Stops
import Mathlib.Data.List.Nodup

/-!
# `Proofs.Selection` — what is compiled, and in which order

A program may declare a function, define it several times and list all this in any order. Calls are resolved
by name, and so is what is compiled: of every name that has a body the one function that a call of this name
finds, the entry function first and the others sorted by name. This describes the order completely.

## Contents

* `firsts`, `firsts_eq_distinctBy` — the first of each name;
* `Program.Defines`, `Program.function?_body_iff`, `Program.mem_definitions_iff` — what calls find;
* `Program.Selects`, `Program.compileOrder?_eq_some_iff`, `Program.compileOrder?_eq_none_iff` — the order;
* `Program.compileOrder?_of_perm` — functions listed in another order;
* `compileWith_missingEntry_iff` — a program without an entry function;
* `Program.compile_order_exact` — all of it.
-/

namespace DisBackend

open Ssa (Function Program)

/-! ## The first of each name -/

namespace Ssa

/-- The functions whose names have not come before. -/
def firsts (seen : List String) (fs : List Function) : List Function :=
  ((markFirst seen fs).filter Prod.snd).map Prod.fst

theorem firsts_cons (seen : List String) (f : Function) (fs : List Function) :
    firsts seen (f :: fs) =
      if f.name ∈ seen then firsts (f.name :: seen) fs else f :: firsts (f.name :: seen) fs := by
  unfold firsts
  rw [markFirst, List.filter_cons]
  by_cases h : f.name ∈ seen <;> simp [h]

/-- They are the first elements of each name, among those that have not come before. -/
theorem firsts_eq_distinctBy (seen : List String) (fs : List Function) :
    firsts seen fs = distinctBy Function.name (fs.filter fun f => f.name ∉ seen) := by
  induction fs generalizing seen with
  | nil => rfl
  | cons g fs ih =>
    have hfilter : (fs.filter fun f => f.name ∉ g.name :: seen) =
        (fs.filter fun f => f.name ∉ seen).filter fun f => f.name ≠ g.name := by
      rw [List.filter_filter]
      refine List.filter_congr fun f _ => ?_
      rw [← Bool.decide_and, decide_eq_decide, List.mem_cons, not_or]
    rw [firsts_cons, ih, hfilter]
    by_cases hg : g.name ∈ seen
    · -- a name that has come before is no new one
      have hsame : ((fs.filter fun f => f.name ∉ seen).filter fun f => f.name ≠ g.name) =
          fs.filter fun f => f.name ∉ seen := by
        rw [List.filter_eq_self]
        intro f hf
        have hnew := (List.mem_filter.mp hf).2
        exact decide_eq_true fun he => of_decide_eq_true hnew (he ▸ hg)
      rw [if_pos hg, hsame, List.filter_cons_of_neg (by simpa using hg)]
    · rw [if_neg hg, List.filter_cons_of_pos (by simpa using hg), distinctBy_cons]

namespace Program

variable {p : Program}

/-- The program has a function of that name with a body. -/
def Defines (p : Program) (name : String) : Prop :=
  ∃ f ∈ p.functions, f.name = name ∧ f.isDeclaration = false

/-- **What a call finds,** if it finds a body: the first one of its name. -/
theorem function?_body_iff {name : String} {f : Function} :
    p.function? name = some f ∧ f.isDeclaration = false ↔
      (p.functions.filter (! ·.isDeclaration)).find? (·.name == name) = some f := by
  have hswap : (p.functions.filter (! ·.isDeclaration)).find? (·.name == name) =
      (p.functions.filter (·.name == name)).find? (! ·.isDeclaration) := by
    rw [List.find?_filter, List.find?_filter]
    simp only [and_comm]
  rw [hswap, function?, Option.or_eq_some_iff]
  constructor
  · rintro ⟨hfirst | ⟨hnone, hhead⟩, hbody⟩
    · exact hfirst
    · -- without a body, all functions of that name are declarations
      have hdeclaration := List.find?_eq_none.mp hnone f (List.mem_of_head? hhead)
      simp [hbody] at hdeclaration
  · intro hfirst
    exact ⟨.inl hfirst, by simpa using List.find?_some hfirst⟩

/-- What is compiled: the first body of each name. -/
theorem definitions_eq_distinctBy (p : Program) :
    p.definitions = distinctBy Function.name (p.functions.filter (! ·.isDeclaration)) := by
  have hfirsts := firsts_eq_distinctBy [] (p.functions.filter (! ·.isDeclaration))
  rw [List.filter_eq_self.mpr fun f _ => decide_eq_true List.not_mem_nil] at hfirsts
  exact hfirsts

theorem nodup_definitions (p : Program) : (p.definitions.map Function.name).Nodup := by
  rw [definitions_eq_distinctBy]
  exact nodup_key_distinctBy _ _

/-- **What is compiled is what calls find.** -/
theorem mem_definitions_iff {f : Function} :
    f ∈ p.definitions ↔ p.function? f.name = some f ∧ f.isDeclaration = false := by
  rw [function?_body_iff, definitions_eq_distinctBy, mem_distinctBy_iff]

theorem name_of_function? {name : String} {f : Function} (h : p.function? name = some f) :
    f.name = name := by
  have hmem : f ∈ p.functions.filter (·.name == name) := by
    rw [function?, Option.or_eq_some_iff] at h
    rcases h with hfirst | ⟨-, hhead⟩
    · exact List.mem_of_find?_eq_some hfirst
    · exact List.mem_of_head? hhead
  simpa using (List.mem_filter.mp hmem).2

/-- A function with a body that a call finds by name is compiled. -/
theorem mem_definitions {name : String} {f : Function} (h : p.function? name = some f)
    (hbody : f.isDeclaration = false) : f ∈ p.definitions ∧ f.name = name := by
  have hname := name_of_function? h
  refine ⟨mem_definitions_iff.mpr ⟨?_, hbody⟩, hname⟩
  rw [hname]
  exact h

theorem defines_iff {name : String} : p.Defines name ↔ name ∈ p.definitions.map Function.name := by
  rw [definitions_eq_distinctBy, map_key_distinctBy, List.mem_eraseDups, List.mem_map]
  refine exists_congr fun f => ?_
  rw [List.mem_filter, Bool.not_eq_true', and_assoc]
  exact and_congr_right fun _ => and_comm

theorem eq_of_name {f g : Function} (hf : f ∈ p.definitions) (hg : g ∈ p.definitions)
    (h : f.name = g.name) : f = g :=
  List.inj_on_of_nodup_map p.nodup_definitions hf hg h

/-! ## The order -/

variable {order : List Function}

/-- **All definitions are compiled,** each once. -/
theorem compileOrder?_perm (h : p.compileOrder? = some order) : order.Perm p.definitions := by
  unfold compileOrder? at h
  split at h
  · cases h
  · next entry hentry =>
    cases h
    have hmem := List.mem_of_find?_eq_some hentry
    have hname : entry.name = p.entry := by simpa using List.find?_some hentry
    have hothers : p.definitions.filter (·.name != p.entry) = p.definitions.erase entry := by
      rw [p.nodup_definitions.of_map.erase_eq_filter]
      refine List.filter_congr fun g hg => ?_
      rw [← hname, Bool.eq_iff_iff, bne_iff_ne, bne_iff_ne]
      exact not_congr ⟨eq_of_name hg hmem, congrArg Function.name⟩
    exact ((List.mergeSort_perm _ _).cons entry).trans (hothers ▸ (List.perm_cons_erase hmem).symm)

/-- Sorting functions of different names by name. -/
theorem pairwise_name_mergeSort {fs : List Function} (hnodup : (fs.map Function.name).Nodup) :
    ((fs.mergeSort (·.name ≤ ·.name)).map Function.name).Pairwise (· < ·) := by
  have hsorted : (fs.mergeSort (·.name ≤ ·.name)).Pairwise fun f g => decide (f.name ≤ g.name) = true := by
    apply List.pairwise_mergeSort
    · intro f g h hfg hgh
      simp only [decide_eq_true_eq] at *
      exact String.le_trans hfg hgh
    · intro f g
      simpa using String.le_total f.name g.name
  have hdistinct : (fs.mergeSort (·.name ≤ ·.name)).Pairwise fun f g => f.name ≠ g.name :=
    List.pairwise_map.mp (((List.mergeSort_perm fs _).map Function.name).nodup_iff.mpr hnodup)
  rw [List.pairwise_map]
  refine (hsorted.and hdistinct).imp ?_
  rintro f g ⟨hle, hne⟩
  apply String.not_le.mp
  intro hge
  exact hne (String.le_antisymm (of_decide_eq_true hle) hge)

/-- `order` is the order in which a program is compiled: the entry function first, the others by name, of
every name that has a body the function that calls find. -/
structure Selects (p : Program) (order : List Function) : Prop where
  starts : ∃ entry rest, order = entry :: rest ∧ entry.name = p.entry ∧
    (rest.map Function.name).Pairwise (· < ·)
  distinct : (order.map Function.name).Nodup
  defined : ∀ name, name ∈ order.map Function.name ↔ p.Defines name
  found : ∀ f ∈ order, p.function? f.name = some f

theorem selects_of_compileOrder? (h : p.compileOrder? = some order) : p.Selects order := by
  have hperm := compileOrder?_perm h
  refine ⟨?_, ?_, fun name => ?_, fun f hf => ?_⟩
  · unfold compileOrder? at h
    split at h
    · cases h
    · next entry hentry =>
      cases h
      refine ⟨entry, _, rfl, by simpa using List.find?_some hentry, ?_⟩
      exact pairwise_name_mergeSort (p.nodup_definitions.sublist (List.filter_sublist.map _))
  · exact (hperm.map _).nodup_iff.mpr p.nodup_definitions
  · rw [defines_iff, (hperm.map _).mem_iff]
  · exact (mem_definitions_iff.mp (hperm.mem_iff.mp hf)).1

/-- The entry function comes first. -/
theorem compileOrder?_head (h : p.compileOrder? = some order) :
    ∃ entry rest, order = entry :: rest ∧ entry.name = p.entry := by
  obtain ⟨entry, rest, horder, hname, -⟩ := (selects_of_compileOrder? h).starts
  exact ⟨entry, rest, horder, hname⟩

theorem compileOrder?_eq_none_iff : p.compileOrder? = none ↔ ¬ p.Defines p.entry := by
  unfold compileOrder?
  rw [defines_iff]
  cases hentry : p.definitions.find? (·.name == p.entry) with
  | none => simpa using hentry
  | some entry =>
    simp only [reduceCtorEq, false_iff, not_not]
    exact List.mem_map.mpr ⟨entry, List.mem_of_find?_eq_some hentry, by simpa using List.find?_some hentry⟩

namespace Selects

variable {order' : List Function} (h : p.Selects order)

include h

/-- What is compiled has a body. -/
theorem body {f : Function} (hf : f ∈ order) : f.isDeclaration = false := by
  have hdefined := (h.defined f.name).mp (List.mem_map_of_mem hf)
  obtain ⟨g, hg, hname⟩ := List.mem_map.mp (defines_iff.mp hdefined)
  obtain ⟨hfound, hbody⟩ := mem_definitions_iff.mp hg
  rw [hname, h.found f hf, Option.some.injEq] at hfound
  rw [hfound]
  exact hbody

/-- What calls find is compiled. -/
theorem mem_iff {f : Function} : f ∈ order ↔ p.function? f.name = some f ∧ f.isDeclaration = false := by
  constructor
  · intro hf
    exact ⟨h.found f hf, h.body hf⟩
  · rintro ⟨hfound, hbody⟩
    have hdefined := defines_iff.mpr (List.mem_map_of_mem (mem_definitions_iff.mpr ⟨hfound, hbody⟩))
    obtain ⟨g, hg, hname⟩ := List.mem_map.mp ((h.defined f.name).mpr hdefined)
    have hfound' := h.found g hg
    rw [hname, hfound, Option.some.injEq] at hfound'
    rw [hfound']
    exact hg

/-- **There is only one such order.** -/
theorem eq (h' : p.Selects order') : order = order' := by
  have hmem (f : Function) : f ∈ order ↔ f ∈ order' := by rw [h.mem_iff, h'.mem_iff]
  obtain ⟨entry, rest, rfl, hentry, hsorted⟩ := h.starts
  obtain ⟨entry', rest', rfl, hentry', hsorted'⟩ := h'.starts
  have hsame : entry = entry' := by
    have hfound := h.found entry List.mem_cons_self
    have hfound' := h'.found entry' List.mem_cons_self
    rw [hentry] at hfound
    rw [hentry', hfound, Option.some.injEq] at hfound'
    exact hfound'
  subst hsame
  have hnodup := h.distinct.of_map
  have hnodup' := h'.distinct.of_map
  -- two sorted lists with the same members
  have hperm : (entry :: rest).Perm (entry :: rest') := (List.perm_ext_iff_of_nodup hnodup hnodup').mpr hmem
  congr 1
  refine hperm.cons_inv.eq_of_pairwise ?_ (List.pairwise_map.mp hsorted) (List.pairwise_map.mp hsorted')
  intro f g _ _ hfg hgf
  exact absurd (String.lt_trans hfg hgf) (String.lt_irrefl _)

/-- A function that a call finds is compiled once. -/
theorem filter_name {name : String} {f : Function} (hfound : p.function? name = some f)
    (hbody : f.isDeclaration = false) : order.filter (·.name == name) = [f] := by
  obtain rfl := name_of_function? hfound
  have hf : f ∈ order := h.mem_iff.mpr ⟨hfound, hbody⟩
  have honly : ∀ g ∈ order, (g.name == f.name) = (g == f) := by
    intro g hg
    rw [Bool.eq_iff_iff, beq_iff_eq, beq_iff_eq]
    exact ⟨List.inj_on_of_nodup_map h.distinct hg hf, congrArg _⟩
  rw [List.filter_congr honly, List.filter_beq, List.count_eq_one_of_mem h.distinct.of_map hf]
  rfl

end Selects

/-- **The order is the one that is described,** and there is one if the entry function has a body. -/
theorem compileOrder?_eq_some_iff : p.compileOrder? = some order ↔ p.Selects order := by
  constructor
  · exact selects_of_compileOrder?
  · intro h
    cases hfound : p.compileOrder? with
    | some order' => rw [(selects_of_compileOrder? hfound).eq h]
    | none =>
      -- the entry function is compiled, so it is defined
      obtain ⟨entry, rest, rfl, hentry, -⟩ := h.starts
      have hdefines := (h.defined entry.name).mp (List.mem_map_of_mem List.mem_cons_self)
      rw [hentry] at hdefines
      exact absurd hdefines (compileOrder?_eq_none_iff.mp hfound)

/-! ## Functions listed in another order -/

section Perm

variable {p' : Program}

/-- If no two bodies have one name, calls find every one of them. -/
theorem function?_of_distinct
    (hdistinct : ((p.functions.filter (! ·.isDeclaration)).map Function.name).Nodup) {f : Function}
    (hf : f ∈ p.functions) (hbody : f.isDeclaration = false) : p.function? f.name = some f := by
  have hmem : f ∈ p.functions.filter (! ·.isDeclaration) := List.mem_filter.mpr ⟨hf, by simp [hbody]⟩
  exact (function?_body_iff.mpr (find?_of_nodup_map hdistinct hmem)).1

theorem Defines.of_perm (hperm : p.functions.Perm p'.functions) {name : String} :
    p'.Defines name ↔ p.Defines name := by
  unfold Defines
  simp only [hperm.mem_iff]

theorem Selects.of_perm (h : p.Selects order) (hentry : p'.entry = p.entry)
    (hperm : p.functions.Perm p'.functions)
    (hdistinct : ((p.functions.filter (! ·.isDeclaration)).map Function.name).Nodup) : p'.Selects order where
  starts := by
    rw [hentry]
    exact h.starts
  distinct := h.distinct
  defined name := by rw [h.defined, Defines.of_perm hperm]
  found f hf := by
    have hfind := function?_body_iff.mp ⟨h.found f hf, h.body hf⟩
    have hmem := (List.mem_filter.mp (List.mem_of_find?_eq_some hfind)).1
    apply function?_of_distinct ?_ (hperm.mem_iff.mp hmem) (h.body hf)
    exact (((hperm.filter _).map _).nodup_iff).mp hdistinct

/-- **The order in which functions are listed does not matter,** if no two bodies have one name. -/
theorem compileOrder?_of_perm (hentry : p'.entry = p.entry) (hperm : p.functions.Perm p'.functions)
    (hdistinct : ((p.functions.filter (! ·.isDeclaration)).map Function.name).Nodup) :
    p'.compileOrder? = p.compileOrder? := by
  cases horder : p.compileOrder? with
  | some order =>
    have h := selects_of_compileOrder? horder
    exact compileOrder?_eq_some_iff.mpr (h.of_perm hentry hperm hdistinct)
  | none =>
    rw [compileOrder?_eq_none_iff, hentry, Defines.of_perm hperm]
    exact compileOrder?_eq_none_iff.mp horder

end Perm
end Program
end Ssa

/-! ## Programs without an entry function -/

/-- The stop is not for want of an entry function. -/
def CompileStop.HasEntry : CompileStop → Prop
  | .error (.missingEntry _) => False
  | _ => True

theorem CompileStop.hasEntry_ofStop (name : String) (stop : Stop) : (ofStop name stop).HasEntry := by
  cases stop <;> trivial

/-- Once the order is known, no stage asks for the entry function any more. -/
theorem hasEntry_lowerProgram (lower : Lowerer) (p : Program) (order : List Function) (c : Context) :
    StopsFor CompileStop.HasEntry (lowerProgram lower p order) c := by
  have hfault {σ α : Type} (m : EStateM Fault σ α) (s : σ) : StopsFor CompileStop.HasEntry (orStop m) s :=
    .orStop (P := fun _ => True) (fun _ _ _ => trivial) fun _ _ => trivial
  refine .bind (hfault _ c) fun _ _ _ => .bind ?_ fun _ _ _ => .bind (hfault _ _) fun _ _ _ => .pure
  exact .lowerAll (P := fun _ => True) (fun _ _ _ _ _ => trivial)
    (fun name stop _ => CompileStop.hasEntry_ofStop name stop) order

/-- **A compilation stops for want of an entry function if there is no order,** whatever lowers the
functions. -/
theorem compileWith_missingEntry_iff {lower : Lowerer} {options : CompileOptions} {p : Program}
    {name : String} {log log' : Log} :
    compileWith lower options p log = .error (.error (.missingEntry name)) log' ↔
      p.compileOrder? = none ∧ name = p.entry ∧ log' = log := by
  unfold compileWith
  cases horder : p.compileOrder? with
  | none =>
    constructor
    · intro h
      cases h
      exact ⟨rfl, rfl, rfl⟩
    · rintro ⟨-, rfl, rfl⟩
      rfl
  | some order =>
    simp only [reduceCtorEq, false_and, iff_false]
    intro h
    refine (?_ : StopsFor CompileStop.HasEntry _ log) _ _ h
    refine .bind .modify fun _ log₁ _ => ?_
    refine .bind (stopsFor_withContext (hasEntry_lowerProgram lower p order) log₁) fun _ _ _ => ?_
    exact .orStop (P := fun _ => True) (fun _ _ _ => trivial) fun _ _ => trivial

/-! ## All of it -/

/-- **What is compiled, and in which order.** There is an order, and compilation does not stop for want of an
entry function, if and only if a function with the name of the entry has a body. The order is the one that
`Selects` describes. A call that finds a body finds one that is compiled, once. And the order in which
functions are listed does not matter if no two bodies have one name. -/
theorem Ssa.Program.compile_order_exact (p : Program) :
    (p.compileOrder? = none ↔ ¬ p.Defines p.entry) ∧
    (∀ lower options log, compileWith lower options p log = .error (.error (.missingEntry p.entry)) log ↔
      ¬ p.Defines p.entry) ∧
    (∀ order, p.compileOrder? = some order ↔ p.Selects order) ∧
    (∀ order name f, p.compileOrder? = some order → p.function? name = some f → f.isDeclaration = false →
      order.filter (·.name == name) = [f]) ∧
    ∀ p' : Program, p'.entry = p.entry → p.functions.Perm p'.functions →
      ((p.functions.filter (! ·.isDeclaration)).map Function.name).Nodup →
        p'.compileOrder? = p.compileOrder? := by
  refine ⟨compileOrder?_eq_none_iff, fun lower options log => ?_, fun _ => compileOrder?_eq_some_iff, ?_, ?_⟩
  · rw [compileWith_missingEntry_iff, compileOrder?_eq_none_iff]
    simp
  · intro order name f horder hfound hbody
    exact (selects_of_compileOrder? horder).filter_name hfound hbody
  · intro p' hentry hperm hdistinct
    exact compileOrder?_of_perm hentry hperm hdistinct

/-! ## A program that repeats itself -/

/-- A function that only returns. -/
def troupeMember (name : String) : Function := ⟨name, [], none, [⟨[.ret none]⟩]⟩

/-- The entry function, which calls another. -/
def troupeMain : Function := ⟨"main", [], none, [⟨[.call none "clown" [], .ret none]⟩]⟩

/-- Declares functions before and after their bodies, and has two bodies for some names. -/
def troupe : Program where
  sourcePath := "troupe"
  functions := [{ troupeMain with blocks := [] }, troupeMember "mime", troupeMain,
    { troupeMember "clown" with blocks := [] }, troupeMember "clown", { troupeMain with result := some .int },
    { troupeMember "mime" with result := some .int }, { troupeMember "juggler" with blocks := [] }]

/-- `troupe` without its second bodies. -/
def smallTroupe : Program := { troupe with functions := troupe.functions.eraseIdx 5 |>.eraseIdx 5 }

/-- The order of `troupe`, as `Selects` describes it. -/
theorem selects_troupe : troupe.Selects [troupeMain, troupeMember "clown", troupeMember "mime"] where
  starts := ⟨_, _, rfl, rfl, by decide⟩
  distinct := by decide
  defined name := by
    have hperm : ([troupeMain, troupeMember "clown", troupeMember "mime"].map Function.name).Perm
        (troupe.definitions.map Function.name) := by decide
    rw [Ssa.Program.defines_iff, hperm.mem_iff]
  found := by decide

/-- The bodies are found between the declarations, and `juggler` has none. -/
theorem Ssa.Program.compile_order_exact_troupe :
    troupe.compileOrder? = some [troupeMain, troupeMember "clown", troupeMember "mime"] ∧
      troupe.function? "mime" = some (troupeMember "mime") ∧
      [troupeMain, troupeMember "clown", troupeMember "mime"].filter (·.name == "mime") =
        [troupeMember "mime"] ∧
      { smallTroupe with functions := smallTroupe.functions.reverse }.compileOrder? =
        smallTroupe.compileOrder? ∧
      { troupe with entry := "juggler" }.compileOrder? = none ∧
      ¬ { troupe with entry := "juggler" }.Defines "juggler" := by
  obtain ⟨-, -, hselects, hcallee, -⟩ := compile_order_exact troupe
  obtain ⟨-, -, -, -, hperm⟩ := compile_order_exact smallTroupe
  obtain ⟨hnone, -⟩ := compile_order_exact { troupe with entry := "juggler" }
  have horder := (hselects _).mpr selects_troupe
  have hmissing : { troupe with entry := "juggler" }.compileOrder? = none := by decide
  refine ⟨horder, by decide, hcallee _ "mime" _ horder (by decide) rfl, ?_, hmissing, hnone.mp hmissing⟩
  exact hperm _ rfl (List.reverse_perm _).symm (by decide)

end DisBackend
