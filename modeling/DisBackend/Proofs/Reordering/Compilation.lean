import DisBackend.Proofs.Faults.Compilation
import DisBackend.Proofs.Reordering.Linking
import DisBackend.Proofs.Reordering.Lowering

/-!
# `Proofs.Reordering.Compilation` — the order of functions does not matter

The functions of a program are compiled in the order of their names, but strings and imports are collected
in the order of the program. So the order in which a program lists its functions has an influence on the
places of strings and of imports, and it is shown here that it has no other: not on the verdict, and not on
anything else in the module.

## Contents

* `Program.definitions_perm`, `Program.compileOrder?_eq`, `Program.function?_eq` — what is compiled;
* `Program.exists_renamed` — what is prepared;
* `CompileStop.Same`, `alike_lowerProgram`, `alike_compile` — two compilations side by side;
* `compile_reordered` — the result.
-/

namespace DisBackend

open Ssa (Function Program)

/-! ## What is compiled -/

section Keys

variable {α β : Type} [BEq β] [LawfulBEq β] {key : α → β} {xs ys : List α}

theorem find?_key_eq_some_iff (hnodup : (xs.map key).Nodup) {b : β} {x : α} :
    xs.find? (key · == b) = some x ↔ x ∈ xs ∧ key x = b := by
  constructor
  · intro h
    exact ⟨List.mem_of_find?_eq_some h, by simpa using List.find?_some h⟩
  · rintro ⟨hx, rfl⟩
    exact find?_of_nodup_map hnodup hx

/-- If no two members have one key, it does not matter where a member stands. -/
theorem find?_key_perm (hnodup : (xs.map key).Nodup) (hperm : xs.Perm ys) (b : β) :
    ys.find? (key · == b) = xs.find? (key · == b) := by
  apply Option.ext
  intro x
  rw [find?_key_eq_some_iff hnodup, find?_key_eq_some_iff ((hperm.map key).nodup hnodup), hperm.mem_iff]

theorem filter_key_eq_toList (hnodup : (xs.map key).Nodup) (b : β) :
    xs.filter (key · == b) = (xs.find? (key · == b)).toList := by
  induction xs with
  | nil => rfl
  | cons x xs ih =>
    rw [List.map_cons, List.nodup_cons] at hnodup
    by_cases hx : key x = b
    · have hnone : xs.filter (key · == b) = [] := by
        rw [List.filter_eq_nil_iff]
        intro y hy hkey
        exact hnodup.1 (List.mem_map.mpr ⟨y, hy, (beq_iff_eq.mp hkey).trans hx.symm⟩)
      rw [List.filter_cons_of_pos (by simpa using hx), List.find?_cons_of_pos (by simpa using hx), hnone]
      rfl
    · rw [List.filter_cons_of_neg (by simpa using hx), List.find?_cons_of_neg (by simpa using hx)]
      exact ih hnodup.2

end Keys

namespace Ssa

namespace Program

variable {p : Program}

/-- Where no name comes twice, all functions with a body are compiled. -/
theorem definitions_eq_filter (hnames : (p.functions.map Function.name).Nodup) :
    p.definitions = p.functions.filter (! ·.isDeclaration) := by
  have hsub : ((p.functions.filter (! ·.isDeclaration)).map Function.name).Nodup :=
    hnames.sublist (List.filter_sublist.map _)
  rw [definitions_eq_distinctBy, distinctBy_of_nodup hsub]

theorem function?_eq_find? (hnames : (p.functions.map Function.name).Nodup) (name : String) :
    p.function? name = p.functions.find? (·.name == name) := by
  unfold function?
  rw [filter_key_eq_toList hnames]
  cases p.functions.find? (·.name == name) with
  | none => rfl
  | some f => cases hbody : f.isDeclaration <;> simp [hbody]

/-- `p'` is `p` with its functions, of which no two have one name, in another order. -/
structure Reordered (p p' : Program) : Prop where
  sourcePath : p'.sourcePath = p.sourcePath
  entry : p'.entry = p.entry
  globals : p'.globals = p.globals
  functions : p.functions.Perm p'.functions
  distinct : (p.functions.map Function.name).Nodup

/-- An import is known by its name. -/
theorem natives_eq_filterMap (p : Program) :
    p.natives = (p.natives.map SysFunction.name).filterMap SysFunction.lookup? := by
  have hlookup : ∀ f ∈ p.natives, (SysFunction.lookup? ∘ SysFunction.name) f = some f := fun f hf =>
    lookup?_of_mem_natives hf
  rw [List.filterMap_map, List.filterMap_congr hlookup, List.filterMap_some]

theorem preparedCells_blank (p : Program) : p.preparedCells.map Cell.blank =
    .handle :: List.replicate p.strings.length (.string "") ++ (p.firstGlobals.map globalCell) := by
  have hstrings : (p.strings.map Cell.string).map Cell.blank =
      List.replicate p.strings.length (.string "") := by
    rw [List.map_map]
    exact List.map_const
  have hglobals : (p.firstGlobals.map globalCell).map Cell.blank = p.firstGlobals.map globalCell := by
    rw [List.map_map]
    rfl
  unfold preparedCells
  rw [List.map_append, List.map_cons, hstrings, hglobals]
  rfl

namespace Reordered

variable {p p' : Program} (h : p.Reordered p')

include h

theorem distinct' : (p'.functions.map Function.name).Nodup := (h.functions.map _).nodup h.distinct

theorem definitions_perm : p.definitions.Perm p'.definitions := by
  rw [definitions_eq_filter h.distinct, definitions_eq_filter h.distinct']
  exact h.functions.filter _

/-- **Calls find the same functions.** -/
theorem function?_eq (name : String) : p'.function? name = p.function? name := by
  rw [function?_eq_find? h.distinct, function?_eq_find? h.distinct']
  exact find?_key_perm h.distinct h.functions name

/-- **The functions are compiled in the same order.** -/
theorem compileOrder?_eq : p'.compileOrder? = p.compileOrder? :=
  compileOrder?_of_perm h.entry h.functions (h.distinct.sublist (List.filter_sublist.map _))

/-! ## What is prepared -/

theorem strings_perm : p.strings.Perm p'.strings :=
  eraseDups_perm ((h.definitions_perm.flatMap_right _).cons _)

theorem firstGlobals_eq : p'.firstGlobals = p.firstGlobals := by
  unfold firstGlobals
  rw [h.globals]

theorem preparedCells_perm : p.preparedCells.Perm p'.preparedCells := by
  unfold preparedCells
  rw [h.firstGlobals_eq]
  exact ((h.strings_perm.map _).cons _).append_right _

theorem natives_perm : p.natives.Perm p'.natives := by
  have hcalls := ((h.definitions_perm.flatMap_right Function.nativeCalls).filterMap
    SysFunction.lookup?).cons SysFunction.print
  have hkeys : (p.natives.map SysFunction.name).Perm (p'.natives.map SysFunction.name) := by
    unfold natives
    rw [map_key_distinctBy, map_key_distinctBy]
    exact eraseDups_perm (hcalls.map _)
  rw [p.natives_eq_filterMap, p'.natives_eq_filterMap]
  exact hkeys.filterMap _

/-- **What is prepared differs by a renaming.** -/
theorem exists_renamed : ∃ ρ : Renaming, ∀ log log' : Log,
    Context.Renamed ρ ⟨p, p.preparedCells, p.natives, log⟩ ⟨p', p'.preparedCells, p'.natives, log'⟩ := by
  obtain ⟨words, hwords⟩ := exists_rearranged h.preparedCells_perm
  obtain ⟨imports, himports⟩ := exists_rearranged h.natives_perm
  have hhandle : words 0 = 0 := hwords.fixed p.nodup_preparedCells rfl rfl
  have hpath : words 1 = 1 := hwords.fixed p.nodup_preparedCells p.preparedCells_one p'.preparedCells_one
  have hblank : p'.preparedCells.map Cell.blank = p.preparedCells.map Cell.blank := by
    rw [p.preparedCells_blank, p'.preparedCells_blank, h.strings_perm.length_eq, h.firstGlobals_eq]
  refine ⟨⟨words, imports, hhandle, hpath⟩, fun log log' => ?_⟩
  exact ⟨h.function?_eq, hwords, p.nodup_preparedCells, hblank, himports, nodup_key_distinctBy _ _⟩

end Reordered
end Program
end Ssa

/-! ## Two compilations -/

/-- The same verdict, or a limit of the machine in both cases. -/
def CompileStop.Same : CompileStop → CompileStop → Prop
  | .error e, .error e' => e = e'
  | .fault cause, .fault cause' => cause.IsLimit ∧ cause'.IsLimit
  | _, _ => False

section Stages

variable {σ α : Type} {R : σ → σ → Prop} {Q : α → α → Prop}

/-- A stage that never refuses a program. -/
theorem alike_orStop {m m' : EStateM Fault σ α} {s s' : σ}
    (h : Alike (fun _ _ => True) R Q (m s) (m' s')) (hm : StopsFor Fault.IsLimit m s)
    (hm' : StopsFor Fault.IsLimit m' s') : Alike CompileStop.Same R Q (orStop m s) (orStop m' s') := by
  unfold orStop
  obtain ⟨a, t, a', t', hrun, hrun', hresult, hstate⟩ | ⟨e, t, e', t', hrun, hrun', -⟩ := h.outcomes
  · rw [hrun, hrun']
    exact .ok hresult hstate
  · rw [hrun, hrun']
    exact .error ⟨hm e t hrun, hm' e' t' hrun'⟩

/-- A stage that stops for the same reason. -/
theorem Alike.same {m m' : EStateM CompileStop σ α} {s s' : σ} (h : Alike Eq R Q (m s) (m' s'))
    (hm : StopsFor CompileStop.IsFair m s) : Alike CompileStop.Same R Q (m s) (m' s') := by
  obtain ⟨a, t, a', t', hrun, hrun', hresult, hstate⟩ | ⟨e, t, _, t', hrun, hrun', rfl⟩ := h.outcomes
  · rw [hrun, hrun']
    exact .ok hresult hstate
  · have hfair := hm e t hrun
    rw [hrun, hrun']
    cases e with
    | error cause => exact .error (Eq.refl cause)
    | fault cause => exact .error ⟨hfair, hfair⟩

/-- Whether module data can be described does not depend on what it holds. -/
theorem parallel_finish {ρ : Renaming} :
    Parallel (fun _ _ => True) (Context.Renamed ρ) (fun _ _ => True) Context.finish Context.finish := by
  refine .bind .get fun c c' h => .bind_eq (fun t t' ht => .ok rfl (ht.of_log _ _)) fun _ => ?_
  rw [h.moduleData_eq]
  cases c.moduleData.descriptor 0 with
  | ok descriptor => exact .pure trivial
  | error fault => exact .throw trivial

end Stages

/-- The functions of two programs, lowered, differ by a renaming. -/
def LoweredAlike (p p' : Program) (r r' : List Fragment × DataSegment) : Prop :=
  ∃ (ρ : Renaming) (T : Translation p) (T' : Translation p'), r = (T.fragments, T.data) ∧
    r' = (T'.fragments, T'.data) ∧ T.final.Renamed ρ T'.final ∧
    T'.fragments = T.fragments.map (Fragment.rename ρ)

namespace Ssa.Program.Reordered

variable {p p' : Program} (h : p.Reordered p')

include h

theorem alike_prepare {ρ : Renaming} (hρ : ∀ log log' : Log,
      Context.Renamed ρ ⟨p, p.preparedCells, p.natives, log⟩ ⟨p', p'.preparedCells, p'.natives, log'⟩)
    (log log' : Log) :
    Alike CompileStop.Same (Context.Renamed ρ) Eq (orStop (prepare p) (Context.initial p log))
      (orStop (prepare p') (Context.initial p' log')) := by
  refine alike_orStop ?_ (stopsFor_prepare p) (stopsFor_prepare p')
  -- both need the same number of words
  have hroom : HasRoom p'.preparedCells ↔ HasRoom p.preparedCells := by
    unfold HasRoom
    rw [h.preparedCells_perm.length_eq]
  rcases prepare_outcome p log with ⟨hfits, l, hok⟩ | ⟨hfull, fault, c, herror⟩
  · rcases prepare_outcome p' log' with ⟨-, l', hok'⟩ | ⟨hfull', -⟩
    · rw [hok, hok']
      exact .ok rfl (hρ l l')
    · exact absurd (hroom.mpr hfits) hfull'
  · rcases prepare_outcome p' log' with ⟨hfits', -⟩ | ⟨-, fault', c', herror'⟩
    · exact absurd (hroom.mp hfits') hfull
    · rw [herror, herror']
      exact .error trivial

/-- **The functions are lowered in the same way,** whatever their order. -/
theorem alike_lowerProgram {order : List Function} (horder : p.compileOrder? = some order) (log log' : Log) :
    Alike CompileStop.Same (fun _ _ => True) (LoweredAlike p p')
      (lowerProgram lowerFunction p order (Context.initial p log))
      (lowerProgram lowerFunction p' order (Context.initial p' log')) := by
  obtain ⟨ρ, hρ⟩ := h.exists_renamed
  have horder' : p'.compileOrder? = some order := h.compileOrder?_eq.trans horder
  refine (h.alike_prepare hρ log log').bind fun _ _ c c' hprepare hprepare' _ hprepared => ?_
  refine ((parallel_lowerAll order c c' hprepared).same (stopsFor_lowerAll order)).bind
    fun fragments fragments' d d' hlower hlower' hfragments hfinal => ?_
  refine (alike_orStop (parallel_finish d d' hfinal) stopsFor_finish stopsFor_finish).bind
    fun data data' e e' hfinish hfinish' _ _ => .ok ?_ trivial
  obtain ⟨hdescriptor, hdata⟩ := finish_ok (orStop_ok_iff.mp hfinish)
  obtain ⟨hdescriptor', hdata'⟩ := finish_ok (orStop_ok_iff.mp hfinish')
  exact ⟨ρ,
    ⟨order, horder, c, d, fragments, data, ⟨log, orStop_ok_iff.mp hprepare⟩, hlower, hdescriptor, hdata⟩,
    ⟨order, horder', c', d', fragments', data', ⟨log', orStop_ok_iff.mp hprepare'⟩, hlower', hdescriptor',
      hdata'⟩, rfl, rfl, hfinal, hfragments⟩

theorem alike_withContext {order : List Function} (horder : p.compileOrder? = some order) (log log' : Log) :
    Alike CompileStop.Same (fun _ _ => True) (LoweredAlike p p')
      (withContext p (lowerProgram lowerFunction p order) log)
      (withContext p' (lowerProgram lowerFunction p' order) log') := by
  unfold withContext
  obtain ⟨r, t, r', t', hrun, hrun', hresult, -⟩ | ⟨e, t, e', t', hrun, hrun', hreason⟩ :=
    (h.alike_lowerProgram horder log log').outcomes
  · rw [hrun, hrun']
    exact .ok hresult trivial
  · rw [hrun, hrun']
    exact .error hreason

theorem linkOptions_eq (options : CompileOptions) : options.linkOptions p' = options.linkOptions p := by
  unfold CompileOptions.linkOptions
  rw [h.sourcePath]

/-- **Compilations end alike.** -/
theorem alike_compile (options : CompileOptions) (log log' : Log) :
    Alike CompileStop.Same (fun _ _ => True) (fun c c' => ∃ ρ, CompiledModule.Corresponds ρ c c')
      (compile options p log) (compile options p' log') := by
  unfold compile compileWith
  rw [h.compileOrder?_eq, h.linkOptions_eq, h.entry]
  cases horder : p.compileOrder? with
  | none => exact .error (Eq.refl (CompileError.missingEntry p.entry))
  | some order =>
    have hlog (r r' : List Event) : Parallel CompileStop.Same (fun _ _ => True) Eq
        (modify fun (log : Log) => log ++ r.toArray) (modify fun (log : Log) => log ++ r'.toArray) :=
      .modify fun _ _ _ => trivial
    refine (hlog _ _ log log' trivial).bind fun _ _ l l' _ _ _ _ => ?_
    refine (h.alike_withContext horder l l').bind ?_
    rintro _ _ l l' - - ⟨ρ, T, T', rfl, rfl, hfinal, hfragments⟩ -
    have hassemble := alike_orStop (T.alike_assemble T' (options.linkOptions p) hfinal hfragments l l')
      (T.stopsFor_assemble _ l) (T'.stopsFor_assemble _ l')
    exact hassemble.imp (fun _ _ hreason => hreason) fun _ _ hmodule => ⟨ρ, hmodule⟩

end Ssa.Program.Reordered

/-- **The order of functions does not matter.** If no two functions of a program have one name, then
whatever their order, the program is refused for the same reason, or a limit of the machine is exceeded, or
the modules are the same up to a renaming of the places of string literals and of imports. -/
theorem compile_reordered {program program' : Program} (h : program.Reordered program')
    (options : CompileOptions) (log log' : Log) :
    (∃ e l l', compile options program log = .error (.error e) l ∧
        compile options program' log' = .error (.error e) l') ∨
      (∃ fault fault' l l', compile options program log = .error (.fault fault) l ∧ fault.IsLimit ∧
        compile options program' log' = .error (.fault fault') l' ∧ fault'.IsLimit) ∨
      ∃ ρ compiled compiled' l l', compile options program log = .ok compiled l ∧
        compile options program' log' = .ok compiled' l' ∧
        CompiledModule.Corresponds ρ compiled compiled' := by
  obtain ⟨c, l, c', l', hrun, hrun', ⟨ρ, hmodules⟩, -⟩ | ⟨stop, l, stop', l', hrun, hrun', hsame⟩ :=
    (h.alike_compile options log log').outcomes
  · exact .inr (.inr ⟨ρ, c, c', l, l', hrun, hrun', hmodules⟩)
  · cases stop with
    | error e =>
      cases stop' with
      | error e' =>
        obtain rfl : e = e' := hsame
        exact .inl ⟨e, l, l', hrun, hrun'⟩
      | fault fault' => exact hsame.elim
    | fault fault =>
      cases stop' with
      | error e' => exact hsame.elim
      | fault fault' => exact .inr (.inl ⟨fault, fault', l, l', hrun, hsame.1, hrun', hsame.2⟩)

/-- Formats a string. -/
def courierAway : Function where
  name := "away"
  parameters := []
  result := none
  blocks := [⟨[.const ⟨0⟩ (.string "a"), .callNative none "sprint" [⟨0⟩], .ret none]⟩]

/-- Asks for the time and has a string of its own. -/
def courierMain : Function where
  name := "main"
  parameters := []
  result := none
  blocks := [
    ⟨[.const ⟨0⟩ (.string "m"), .storeGlobal "g" ⟨0⟩, .callNative none "millisec" [], .call none "away" [],
      .ret none]⟩]

/-- A program that is also read with its functions in another order. -/
def courier : Program where
  sourcePath := "courier"
  globals := [⟨"g", .string⟩]
  functions := [courierMain, courierAway]

/-- `courier`, with the other function first. -/
def courierTurned : Program := { courier with functions := [courierAway, courierMain] }

/-- The two modules hold the strings and the imports at different places. -/
theorem compile_reordered_courier : courier.Reordered courierTurned ∧
    ∃ ρ compiled compiled' l l', compile {} courier #[] = .ok compiled l ∧
      compile {} courierTurned #[] = .ok compiled' l' ∧ CompiledModule.Corresponds ρ compiled compiled' ∧
      compiled.module.data = [.string 8 "$Sys", .string 16 "m", .string 24 "a"] ∧
      compiled'.module.data = [.string 8 "$Sys", .string 16 "a", .string 24 "m"] ∧
      compiled.module.imports.map (List.map Import.name) = [["print", "millisec", "sprint"]] ∧
      compiled'.module.imports.map (List.map Import.name) = [["print", "sprint", "millisec"]] := by
  have hturned : courier.Reordered courierTurned := ⟨rfl, rfl, rfl, by decide +kernel, by decide +kernel⟩
  have hparts : (compiled? courier).map
      (fun c => (c.module.data, c.module.imports.map (List.map Import.name))) =
        some ([.string 8 "$Sys", .string 16 "m", .string 24 "a"], [["print", "millisec", "sprint"]]) := by
    decide +kernel
  have hparts' : (compiled? courierTurned).map
      (fun c => (c.module.data, c.module.imports.map (List.map Import.name))) =
        some ([.string 8 "$Sys", .string 16 "a", .string 24 "m"], [["print", "sprint", "millisec"]]) := by
    decide +kernel
  obtain ⟨c, hc, hdata⟩ := Option.map_eq_some_iff.mp hparts
  obtain ⟨c', hc', hdata'⟩ := Option.map_eq_some_iff.mp hparts'
  obtain ⟨l, hrun⟩ := compile_of_compiled? hc
  obtain ⟨l', hrun'⟩ := compile_of_compiled? hc'
  rw [Prod.mk.injEq] at hdata hdata'
  refine ⟨hturned, ?_⟩
  rcases compile_reordered hturned {} #[] #[] with ⟨_, _, _, herror, -⟩ | ⟨_, _, _, _, herror, -⟩ |
    ⟨ρ, _, _, _, _, hok, hok', hmodules⟩
  · rw [hrun] at herror
    cases herror
  · rw [hrun] at herror
    cases herror
  · rw [hrun, EStateM.Result.ok.injEq] at hok
    rw [hrun', EStateM.Result.ok.injEq] at hok'
    obtain ⟨rfl, -⟩ := hok
    obtain ⟨rfl, -⟩ := hok'
    exact ⟨ρ, c, c', l, l', hrun, hrun', hmodules, hdata.1, hdata'.1, hdata.2, hdata'.2⟩

end DisBackend
