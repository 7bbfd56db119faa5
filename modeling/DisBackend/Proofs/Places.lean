import DisBackend.Proofs.Selection

/-!
# `Proofs.Places` — functions told apart by their places

What is compiled can also be found by one pass over the functions of the program. The pass remembers the names
it has seen, starting with that of the entry function, and tells the entry function from others by its place
in the program. The functions it picks are sorted by name, and what they share is placed after looking for
them in the program once more. All this is what `definitions`, `repeated` and `compileOrder?` describe without
places, so a compilation by places is the same compilation.

## Contents

* `Program.placed?`, `pick`, `Program.select?` — the pass;
* `Program.compiledAt`, `setup`, `compileByPlaces` — compilation by places;
* `Before` — what the pass knows of the entry function;
* `Picked.Finds`, `pick_finds` — what it finds: step by step, and all of it;
* `Program.select?_some`, `Program.select?_none` — the same selection;
* `compileWith_eq_places` — the same compilation.
-/

namespace DisBackend

open Ssa (Function Program)

namespace Ssa

/-! ## The pass -/

/-- What a pass over functions and their places finds. -/
structure Picked where
  /-- The functions to compile besides the entry function. -/
  others : List (Function × Nat)
  /-- Those whose names have been seen. -/
  again : List Function

/-- The functions that have a body and a new name. The one at place `entry` is passed over. -/
def pick (entry : Nat) (seen : List String) : List (Function × Nat) → Picked
  | [] => ⟨[], []⟩
  | q :: rest =>
    if q.1.isDeclaration || q.2 == entry then pick entry seen rest
    else if seen.contains q.1.name then
      let picked := pick entry seen rest
      { picked with again := q.1 :: picked.again }
    else
      let picked := pick entry (q.1.name :: seen) rest
      { picked with others := q :: picked.others }

namespace Program

/-- What a call of that name finds, with its place. -/
def placed? (p : Program) (name : String) : Option (Function × Nat) :=
  let named := p.functions.zipIdx.filter (·.1.name == name)
  (named.find? (! ·.1.isDeclaration)).or named.head?

/-- What is compiled, the entry function first, and the definitions that are ignored. -/
def select? (p : Program) : Option (List (Function × Nat) × List Function) :=
  match (p.placed? p.entry).filter (! ·.1.isDeclaration) with
  | none => none
  | some entry =>
    let picked := pick entry.2 [entry.1.name] p.functions.zipIdx
    some (entry :: picked.others.mergeSort (·.1.name ≤ ·.1.name), picked.again)

/-- The functions whose places are among those of `order`, in the order of the program. -/
def compiledAt (p : Program) (order : List (Function × Nat)) : List Function :=
  (p.functions.zipIdx.filter fun q => order.any (·.2 == q.2)).map Prod.fst

end Program
end Ssa

/-- Places what is known before the first function is lowered, where `compiled` are lowered. -/
def setup (program : Program) (compiled : List Function) : ContextM Unit := do
  (compiled.flatMap Function.nativeCalls).forM fun name => discard (Context.registerNative name)
  (compiled.flatMap Function.stringLiterals).forM fun value => discard (Context.stringLiteral value)
  program.globals.forM declareGlobal

/-- Compiles a program, telling functions apart by their places. -/
def compileByPlaces (lower : Lowerer) (options : CompileOptions) (program : Program) :
    Reporting CompileStop CompiledModule := do
  match program.select? with
  | none => throw (.error (.missingEntry program.entry))
  | some selected =>
    modify fun (log : Log) => log ++ (selected.2.map fun f => .duplicateFunction f.name).toArray
    let lowered ← withContext program do
      orStop (setup program (program.compiledAt selected.1))
      let fragments ← lowerAll lower (selected.1.map Prod.fst)
      return (fragments, ← orStop Context.finish)
    orStop (assemble (options.linkOptions program) lowered.1 lowered.2)

namespace Ssa

/-! ## What the pass finds -/

/-- The functions whose names have come before. -/
def repeats (seen : List String) (fs : List Function) : List Function :=
  ((markFirst seen fs).filter (! ·.snd)).map Prod.fst

theorem repeats_cons (seen : List String) (f : Function) (fs : List Function) :
    repeats seen (f :: fs) =
      if f.name ∈ seen then f :: repeats (f.name :: seen) fs else repeats (f.name :: seen) fs := by
  unfold repeats
  rw [markFirst, List.filter_cons]
  by_cases h : f.name ∈ seen <;> simp [h]

/-- The functions that have a body. -/
def bodiesOf (qs : List (Function × Nat)) : List Function :=
  (qs.map Prod.fst).filter (! ·.isDeclaration)

/-- Before the functions `qs`, with the names `passed` of bodies behind: the entry function is the first body
of its name that is still to come, or it is behind. -/
structure Before (entry : Function × Nat) (passed : List String) (qs : List (Function × Nat)) : Prop where
  places : (qs.map Prod.snd).Nodup
  unique : ∀ q ∈ qs, q.2 = entry.2 → q = entry
  behind : entry.1.name ∈ passed → entry ∉ qs
  ahead : entry.1.name ∉ passed →
    ∀ q, qs.find? (fun q => !q.1.isDeclaration && q.1.name == entry.1.name) = some q → q = entry

namespace Before

variable {entry q : Function × Nat} {passed : List String} {qs : List (Function × Nat)}

theorem place_ne (h : Before entry passed (q :: qs)) : ∀ r ∈ qs, r.2 ≠ q.2 := by
  intro r hr heq
  exact (List.nodup_cons.mp h.places).1 (heq ▸ List.mem_map_of_mem hr)

/-- A declaration is passed over. -/
theorem declaration (h : Before entry passed (q :: qs)) (hq : q.1.isDeclaration = true) :
    Before entry passed qs where
  places := (List.nodup_cons.mp h.places).2
  unique r hr := h.unique r (List.mem_cons_of_mem _ hr)
  behind hname hmem := h.behind hname (List.mem_cons_of_mem _ hmem)
  ahead hname r hr := by
    refine h.ahead hname r ?_
    rw [List.find?_cons_of_neg (by simp [hq])]
    exact hr

/-- A body that comes before the entry function has another name. -/
theorem name_ne (h : Before entry passed (q :: qs)) (hq : q.1.isDeclaration = false) (hne : q.2 ≠ entry.2)
    (hname : q.1.name = entry.1.name) : entry.1.name ∈ passed := by
  by_contra hnew
  have hfirst : q = entry := by
    refine h.ahead hnew q ?_
    rw [List.find?_cons_of_pos (by simp [hq, hname])]
  exact hne (congrArg Prod.snd hfirst)

/-- A body is behind. -/
theorem body (h : Before entry passed (q :: qs)) (hq : q.1.isDeclaration = false) :
    Before entry (q.1.name :: passed) qs where
  places := (List.nodup_cons.mp h.places).2
  unique r hr := h.unique r (List.mem_cons_of_mem _ hr)
  behind hname hmem := by
    have hne := h.place_ne entry hmem
    rcases List.mem_cons.mp hname with hsame | hpassed
    · exact h.behind (h.name_ne hq hne.symm hsame.symm) (List.mem_cons_of_mem _ hmem)
    · exact h.behind hpassed (List.mem_cons_of_mem _ hmem)
  ahead hname r hr := by
    obtain ⟨hother, hpassed⟩ := not_or.mp (mt List.mem_cons.mpr hname)
    refine h.ahead hpassed r ?_
    rw [List.find?_cons_of_neg (by simp [Ne.symm hother])]
    exact hr

end Before

section Pass

variable {entry q : Function × Nat} {seen passed : List String} {qs : List (Function × Nat)}

theorem bodiesOf_declaration (h : q.1.isDeclaration = true) : bodiesOf (q :: qs) = bodiesOf qs := by
  simp [bodiesOf, h]

theorem bodiesOf_body (h : q.1.isDeclaration = false) : bodiesOf (q :: qs) = q.1 :: bodiesOf qs := by
  simp [bodiesOf, h]

/-- What is picked stands among the functions. -/
theorem pick_sublist (entry : Nat) (seen : List String) (qs : List (Function × Nat)) :
    (pick entry seen qs).others.Sublist qs := by
  induction qs generalizing seen with
  | nil => exact .slnil
  | cons q qs ih =>
    unfold pick
    split
    · exact (ih seen).cons q
    split
    · exact (ih seen).cons q
    · exact (ih (q.1.name :: seen)).cons_cons q

/-- The function is the entry function, or it is picked. -/
def Picked.chooses (picked : Picked) (entry : Nat) (q : Function × Nat) : Bool :=
  q.2 == entry || picked.others.any (·.2 == q.2)

/-- What a pass finds, in terms of the first bodies of all names. -/
structure Picked.Finds (picked : Picked) (entry : Function × Nat) (passed : List String)
    (qs : List (Function × Nat)) : Prop where
  others : picked.others.map Prod.fst = (firsts passed (bodiesOf qs)).filter (·.name != entry.1.name)
  again : picked.again = repeats passed (bodiesOf qs)
  chosen : (qs.filter (picked.chooses entry.2)).map Prod.fst = firsts passed (bodiesOf qs)

namespace Picked.Finds

variable {picked : Picked}

/-- Nothing that is picked later has the place of the first function. -/
theorem any_eq_false (h : Before entry passed (q :: qs)) (hsub : picked.others.Sublist qs) :
    picked.others.any (·.2 == q.2) = false := by
  rw [List.any_eq_false]
  intro r hr
  simpa using h.place_ne r (hsub.subset hr)

/-- A declaration comes first. -/
theorem declaration (hfinds : picked.Finds entry passed qs) (h : Before entry passed (q :: qs))
    (hsub : picked.others.Sublist qs) (hq : q.1.isDeclaration = true) (hplace : q.2 ≠ entry.2) :
    picked.Finds entry passed (q :: qs) where
  others := by rw [bodiesOf_declaration hq, hfinds.others]
  again := by rw [bodiesOf_declaration hq, hfinds.again]
  chosen := by
    rw [bodiesOf_declaration hq, List.filter_cons_of_neg, hfinds.chosen]
    simp [chooses, hplace, any_eq_false h hsub]

/-- The entry function comes first. -/
theorem passOver (hfinds : picked.Finds q (q.1.name :: passed) qs) (hq : q.1.isDeclaration = false)
    (hnew : q.1.name ∉ passed) : picked.Finds q passed (q :: qs) where
  others := by
    rw [bodiesOf_body hq, firsts_cons, if_neg hnew, List.filter_cons_of_neg (by simp), hfinds.others]
  again := by rw [bodiesOf_body hq, repeats_cons, if_neg hnew, hfinds.again]
  chosen := by
    rw [bodiesOf_body hq, firsts_cons, if_neg hnew, List.filter_cons_of_pos, List.map_cons, hfinds.chosen]
    simp [chooses]

/-- A body comes first whose name is known. -/
theorem repeated (hfinds : picked.Finds entry (q.1.name :: passed) qs) (h : Before entry passed (q :: qs))
    (hsub : picked.others.Sublist qs) (hq : q.1.isDeclaration = false) (hplace : q.2 ≠ entry.2)
    (hpassed : q.1.name ∈ passed) :
    { picked with again := q.1 :: picked.again }.Finds entry passed (q :: qs) where
  others := by rw [bodiesOf_body hq, firsts_cons, if_pos hpassed, ← hfinds.others]
  again := by rw [bodiesOf_body hq, repeats_cons, if_pos hpassed, ← hfinds.again]
  chosen := by
    rw [bodiesOf_body hq, firsts_cons, if_pos hpassed, List.filter_cons_of_neg]
    · exact hfinds.chosen
    · simp [chooses, hplace, any_eq_false h hsub]

/-- A body comes first whose name is new. -/
theorem other (hfinds : picked.Finds entry (q.1.name :: passed) qs) (h : Before entry passed (q :: qs))
    (hq : q.1.isDeclaration = false) (hnew : q.1.name ∉ passed) (hother : q.1.name ≠ entry.1.name) :
    { picked with others := q :: picked.others }.Finds entry passed (q :: qs) where
  others := by
    rw [bodiesOf_body hq, firsts_cons, if_neg hnew, List.filter_cons_of_pos (by simpa using hother),
      ← hfinds.others, List.map_cons]
  again := by rw [bodiesOf_body hq, repeats_cons, if_neg hnew, ← hfinds.again]
  chosen := by
    have hrest : qs.filter (chooses { picked with others := q :: picked.others } entry.2) =
        qs.filter (picked.chooses entry.2) := by
      refine List.filter_congr fun r hr => ?_
      have hne : (q.2 == r.2) = false := beq_eq_false_iff_ne.mpr (h.place_ne r hr).symm
      simp [chooses, hne]
    rw [bodiesOf_body hq, firsts_cons, if_neg hnew, List.filter_cons_of_pos, List.map_cons, hrest,
      hfinds.chosen]
    simp [chooses]

end Picked.Finds

/-- **What one pass finds.** By induction on the functions: `seen` are the names of the bodies behind, and
that of the entry function. -/
theorem pick_finds (hentry : entry.1.isDeclaration = false)
    (hseen : ∀ name, name ∈ seen ↔ name ∈ passed ∨ name = entry.1.name) (h : Before entry passed qs) :
    (pick entry.2 seen qs).Finds entry passed qs := by
  induction qs generalizing seen passed with
  | nil => exact ⟨rfl, rfl, rfl⟩
  | cons q qs ih =>
    unfold pick
    by_cases hq : q.1.isDeclaration = true
    · have hplace : q.2 ≠ entry.2 := by
        intro heq
        rw [h.unique q List.mem_cons_self heq, hentry] at hq
        cases hq
      rw [if_pos (by simp [hq])]
      exact (ih hseen (h.declaration hq)).declaration h (pick_sublist _ _ _) hq hplace
    rw [Bool.not_eq_true] at hq
    by_cases hplace : q.2 = entry.2
    · obtain rfl := h.unique q List.mem_cons_self hplace
      have hseen' (name : String) : name ∈ seen ↔ name ∈ q.1.name :: passed ∨ name = q.1.name := by
        rw [hseen, List.mem_cons]
        tauto
      rw [if_pos (by simp)]
      exact (ih hseen' (h.body hq)).passOver hq fun hpassed => h.behind hpassed List.mem_cons_self
    rw [if_neg (by simp [hq, hplace])]
    by_cases hname : q.1.name ∈ seen
    · -- a body of the entry function's name that is not the entry function comes after it
      have hpassed : q.1.name ∈ passed := by
        rcases (hseen _).mp hname with hpassed | hsame
        · exact hpassed
        · rw [hsame]
          exact h.name_ne hq hplace hsame
      have hseen' (name : String) : name ∈ seen ↔ name ∈ q.1.name :: passed ∨ name = entry.1.name := by
        have hmem : name = q.1.name → name ∈ passed := fun heq => heq ▸ hpassed
        rw [hseen, List.mem_cons, or_iff_right_of_imp hmem]
      rw [if_pos (by simpa using hname)]
      exact (ih hseen' (h.body hq)).repeated h (pick_sublist _ _ _) hq hplace hpassed
    · obtain ⟨hnew, hother⟩ := not_or.mp (mt (hseen _).mpr hname)
      have hseen' (name : String) :
          name ∈ q.1.name :: seen ↔ name ∈ q.1.name :: passed ∨ name = entry.1.name := by
        rw [List.mem_cons, hseen, List.mem_cons, or_assoc]
      rw [if_neg (by simpa using hname)]
      exact (ih hseen' (h.body hq)).other h hq hnew hother

end Pass

/-! ## The same selection -/

namespace Program

variable {p : Program}

/-- Places apart, calls find what they find. -/
theorem map_placed? (p : Program) (name : String) : (p.placed? name).map Prod.fst = p.function? name := by
  have hnamed : p.functions.filter (·.name == name) =
      (p.functions.zipIdx.filter (·.1.name == name)).map Prod.fst := by
    conv_lhs => rw [← List.zipIdx_map_fst 0 p.functions, List.filter_map]
    rfl
  rw [function?, hnamed, List.find?_map, List.head?_map, ← Option.map_or]
  rfl

theorem bodiesOf_zipIdx (p : Program) :
    bodiesOf p.functions.zipIdx = p.functions.filter (! ·.isDeclaration) := by
  rw [bodiesOf, List.zipIdx_map_fst]

/-- Where the pass starts: a call finds the first body of its name. -/
theorem before_zipIdx {entry : Function × Nat} (h : p.placed? p.entry = some entry)
    (hbody : entry.1.isDeclaration = false) : Before entry [] p.functions.zipIdx := by
  have hname : entry.1.name = p.entry := by
    apply name_of_function?
    rw [← map_placed?, h, Option.map_some]
  have hfirst : p.functions.zipIdx.find? (fun q => !q.1.isDeclaration && q.1.name == p.entry) =
      some entry := by
    rw [placed?, Option.or_eq_some_iff] at h
    rcases h with hfound | ⟨hnone, hhead⟩
    · rw [List.find?_filter] at hfound
      rw [← hfound]
      congr 1
      funext q
      rw [Bool.eq_iff_iff]
      simp [and_comm]
    · have hdeclaration := List.find?_eq_none.mp hnone entry (List.mem_of_head? hhead)
      simp [hbody] at hdeclaration
  have hmem := List.mem_of_find?_eq_some hfirst
  refine ⟨?_, fun q hq hplace => ?_, fun hpassed => absurd hpassed List.not_mem_nil, fun _ q hq => ?_⟩
  · rw [List.zipIdx_map_snd]
    exact List.nodup_range' 1
  · rw [List.mem_zipIdx_iff_getElem?] at hq hmem
    rw [hplace, hmem, Option.some.injEq] at hq
    exact Prod.ext hq.symm hplace
  · rw [hname, hfirst, Option.some.injEq] at hq
    exact hq.symm

/-- **The pass selects what is compiled,** leaves out what is repeated, and what it has selected is found
again in the order of the program. -/
theorem select?_some {selected : List (Function × Nat) × List Function} (h : p.select? = some selected) :
    p.compileOrder? = some (selected.1.map Prod.fst) ∧ selected.2 = p.repeated ∧
      p.compiledAt selected.1 = p.definitions := by
  unfold select? at h
  split at h
  · cases h
  · next entry hentry =>
    cases h
    obtain ⟨hplaced, hbody⟩ := Option.filter_eq_some_iff.mp hentry
    rw [Bool.not_eq_true'] at hbody
    have hfound : p.function? p.entry = some entry.1 := by rw [← map_placed?, hplaced, Option.map_some]
    obtain ⟨hmem, hname⟩ := mem_definitions hfound hbody
    have hfinds : (pick entry.2 [entry.1.name] p.functions.zipIdx).Finds entry [] p.functions.zipIdx :=
      pick_finds hbody (by simp) (before_zipIdx hplaced hbody)
    have hothers := hfinds.others
    have hagain := hfinds.again
    have hchosen := hfinds.chosen
    rw [bodiesOf_zipIdx] at hothers hagain hchosen
    refine ⟨?_, hagain, ?_⟩
    · have hfind := find?_of_nodup_map p.nodup_definitions hmem
      rw [hname] at hfind
      rw [compileOrder?, hfind, List.map_cons,
        List.map_mergeSort (s := fun f g : Function => f.name ≤ g.name) fun _ _ _ _ => rfl, hothers, hname]
      rfl
    · refine Eq.trans ?_ hchosen
      unfold compiledAt
      congr 1
      refine List.filter_congr fun q _ => ?_
      rw [List.any_cons, (List.mergeSort_perm _ _).any_eq, Picked.chooses, Bool.beq_comm]

theorem select?_none (h : p.select? = none) : p.compileOrder? = none := by
  rw [compileOrder?_eq_none_iff, defines_iff]
  intro hdefined
  obtain ⟨f, hf, hname⟩ := List.mem_map.mp hdefined
  obtain ⟨hfound, hbody⟩ := mem_definitions_iff.mp hf
  rw [hname, ← map_placed?] at hfound
  obtain ⟨entry, hplaced, rfl⟩ := Option.map_eq_some_iff.mp hfound
  unfold select? at h
  rw [hplaced, Option.filter_some_pos (by simp [hbody])] at h
  cases h

end Program
end Ssa

/-- **A compilation by places is the compilation.** -/
theorem compileWith_eq_places (lower : Lowerer) (options : CompileOptions) (program : Program) :
    compileWith lower options program = compileByPlaces lower options program := by
  unfold compileWith compileByPlaces
  cases hselect : program.select? with
  | none => rw [Ssa.Program.select?_none hselect]
  | some selected =>
    obtain ⟨horder, hagain, hcompiled⟩ := Ssa.Program.select?_some hselect
    rw [horder]
    dsimp only
    rw [hagain, hcompiled]
    rfl

end DisBackend
