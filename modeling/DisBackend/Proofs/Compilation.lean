import DisBackend.Proofs.Linking.Assembly
import DisBackend.Proofs.Lowering.Slots
import DisBackend.Proofs.Selection

/-!
# `Proofs.Compilation` — a compilation and its stages

A compilation selects functions, prepares what they share, lowers them one after the other and links what
came of it. `Translation` keeps what the stages before the last left behind: the order of the functions and
the context in which each was lowered. `Compilation` adds the assembly of the module.

## Contents

* `prepare_grows`, `lowerAll_threaded`, `finish_ok` — the stages;
* `Translation`, `withContext_translation` — the functions of a program, lowered;
* `Translation.callee_eq`, `Translation.exists_callee` — a call finds the function it names;
* `Compilation`, `compile_compilation` — the whole;
* `Compilation.symbol_of_callee` — the symbol that a call goes to.
-/

namespace DisBackend

open Ssa (Function Program Ty)

/-! ## The stages -/

section Stages

variable {c c' : Context} {u : Unit}

theorem grows_of_forM {α : Type} {g : α → ContextM Unit}
    (hg : ∀ a c u c', g a c = .ok u c' → c.Grows c') {as : List α} (h : as.forM g c = .ok u c') :
    c.Grows c' := by
  induction as generalizing c with
  | nil =>
    cases h
    exact .refl _
  | cons a as ih =>
    obtain ⟨_, t, ha, hrest⟩ := bind_ok_iff.mp h
    exact (hg a c _ t ha).trans (ih hrest)

theorem grows_of_registerNative {name : String} {index : Option Nat}
    (h : Context.registerNative name c = .ok index c') : c.Grows c' := by
  unfold Context.registerNative at h
  cases hlookup : SysFunction.lookup? name with
  | none =>
    rw [hlookup] at h
    cases h
    exact .refl c
  | some native =>
    rw [hlookup] at h
    obtain ⟨k, hk, -⟩ := map_ok_iff.mp h
    exact Context.grows_of_nativeImport hlookup hk

theorem grows_of_addGlobal {name : String} {ty : Ty} {slot : GlobalSlot}
    (h : Context.addGlobal name ty c = .ok slot c') : c.Grows c' := by
  unfold Context.addGlobal at h
  cases hglobal : c.global? name with
  | some slot' =>
    rw [hglobal] at h
    cases h
    exact .refl c
  | none =>
    simp only [hglobal] at h
    cases hplace : Context.place (.global name ty) c with
    | error fault t => rw [hplace] at h; cases h
    | ok offset t =>
      rw [hplace] at h
      cases h
      exact Context.grows_of_place hplace

theorem grows_of_declareGlobal {g : Ssa.Global} (h : declareGlobal g c = .ok u c') : c.Grows c' := by
  unfold declareGlobal at h
  obtain ⟨_, _, hget, h⟩ := bind_ok_iff.mp h
  obtain ⟨rfl, rfl⟩ := get_ok_iff.mp hget
  have hadd {t : Context} (hgrows : c.Grows t)
      (h : discard (Context.addGlobal g.name g.ty) t = .ok u c') : c.Grows c' := by
    obtain ⟨slot, hslot, -⟩ := map_ok_iff.mp h
    exact hgrows.trans (grows_of_addGlobal hslot)
  split at h
  · obtain ⟨_, t, hreport, h⟩ := bind_ok_iff.mp h
    cases hreport
    exact hadd (.of_log _) h
  · exact hadd (.refl c) h

/-- **What is prepared is kept.** -/
theorem prepare_grows {program : Program} (h : prepare program c = .ok u c') : c.Grows c' := by
  unfold prepare at h
  obtain ⟨_, t₁, hnatives, h⟩ := bind_ok_iff.mp h
  obtain ⟨_, t₂, hstrings, hglobals⟩ := bind_ok_iff.mp h
  have hgrows₁ : c.Grows t₁ := by
    refine grows_of_forM (fun name c u c' h => ?_) hnatives
    obtain ⟨index, hindex, -⟩ := map_ok_iff.mp h
    exact grows_of_registerNative hindex
  have hgrows₂ : t₁.Grows t₂ := by
    refine grows_of_forM (fun value c u c' h => ?_) hstrings
    obtain ⟨offset, hoffset, -⟩ := map_ok_iff.mp h
    exact Context.grows_of_intern hoffset
  exact hgrows₁.trans (hgrows₂.trans (grows_of_forM (fun g c u c' => grows_of_declareGlobal) hglobals))

/-- One step of `lowerAll`. -/
def LowersTo (c : Context) (f : Function) (fragment : Fragment) (c' : Context) : Prop :=
  lowerFunction f { c with log := c.log.push (.lowering f.name) } = .ok fragment c'

theorem LowersTo.grows {f : Function} {fragment : Fragment} (h : LowersTo c f fragment c') :
    c.Grows c' := by
  obtain ⟨L⟩ := lowerFunction_lowering h
  exact (Context.Grows.of_log _).trans (L.grows.context.trans L.context_grows)

theorem lowerAll_threaded {fs : List Function} {fragments : List Fragment}
    (h : lowerAll lowerFunction fs c = .ok fragments c') : Threaded LowersTo c fs fragments c' := by
  induction fs generalizing c fragments with
  | nil =>
    cases h
    exact .nil
  | cons f fs ih =>
    obtain ⟨_, _, hlog, h⟩ := bind_ok_iff.mp h
    obtain rfl := modify_ok_iff.mp hlog
    obtain ⟨fragment, t, hfragment, h⟩ := bind_ok_iff.mp h
    obtain ⟨rest, _, hrest, h⟩ := bind_ok_iff.mp h
    obtain ⟨rfl, rfl⟩ := pure_ok_iff.mp h
    refine .cons ?_ (ih hrest)
    unfold LowersTo
    cases hlower : lowerFunction f { c with log := c.log.push (.lowering f.name) } with
    | error stop t' => simp only [hlower] at hfragment; cases hfragment
    | ok fragment' t' => simp only [hlower] at hfragment; cases hfragment; rfl

theorem finish_ok {data : DataSegment} (h : Context.finish c = .ok data c') :
    c.moduleData.descriptor 0 = .ok data.descriptor ∧
      data = { data with
        size := c.moduleData.size
        items := c.items
        imports := c.natives.map SysFunction.toImport
        sysOffset := sysOffset
        sysPathOffset := sysPathOffset } := by
  cases hdescriptor : c.moduleData.descriptor 0 with
  | error fault =>
    rw [Context.finish_of_undescribed hdescriptor] at h
    cases h
  | ok d =>
    rw [Context.finish_of_described hdescriptor] at h
    cases h
    exact ⟨rfl, rfl⟩

theorem orStop_ok_iff {σ α : Type} {m : EStateM Fault σ α} {s s' : σ} {a : α} :
    orStop m s = .ok a s' ↔ m s = .ok a s' := by
  unfold orStop
  cases m s with
  | ok b t => exact ⟨fun h => by cases h; rfl, fun h => by cases h; rfl⟩
  | error fault t => exact ⟨nofun, nofun⟩

end Stages

/-! ## The functions of a program -/

/-- The functions of a program, lowered one after the other, and what they share. -/
structure Translation (program : Program) where
  /-- The functions that were compiled. -/
  order : List Function
  selected : program.compileOrder? = some order
  /-- The shared context before the first function. -/
  prepared : Context
  /-- The shared context after the last function. -/
  final : Context
  fragments : List Fragment
  data : DataSegment
  preparation : ∃ log, prepare program (Context.initial program log) = .ok () prepared
  lowering_all : lowerAll lowerFunction order prepared = .ok fragments final
  data_descriptor : final.moduleData.descriptor 0 = .ok data.descriptor
  data_eq : data = { data with
    size := final.moduleData.size
    items := final.items
    imports := final.natives.map SysFunction.toImport
    sysOffset := sysOffset
    sysPathOffset := sysPathOffset }

theorem lowerProgram_ok {program : Program} {order : List Function} {c c' : Context}
    {fragments : List Fragment} {data : DataSegment}
    (h : lowerProgram lowerFunction program order c = .ok (fragments, data) c') :
    ∃ prepared final, prepare program c = .ok () prepared ∧
      lowerAll lowerFunction order prepared = .ok fragments final ∧ Context.finish final = .ok data c' := by
  unfold lowerProgram at h
  obtain ⟨_, prepared, hprepare, h⟩ := bind_ok_iff.mp h
  obtain ⟨fragments', final, hlower, h⟩ := bind_ok_iff.mp h
  obtain ⟨data', _, hfinish, h⟩ := bind_ok_iff.mp h
  obtain ⟨hpair, rfl⟩ := pure_ok_iff.mp h
  cases hpair
  exact ⟨prepared, final, orStop_ok_iff.mp hprepare, hlower, orStop_ok_iff.mp hfinish⟩

/-- **Lowering all functions of a program** leaves a `Translation`. -/
theorem withContext_translation {program : Program} {order : List Function} {fragments : List Fragment}
    {data : DataSegment} {log log' : Log} (horder : program.compileOrder? = some order)
    (h : withContext program (lowerProgram lowerFunction program order) log
      = .ok (fragments, data) log') :
    ∃ T : Translation program, T.fragments = fragments ∧ T.data = data := by
  unfold withContext at h
  cases hrun : lowerProgram lowerFunction program order (Context.initial program log) with
  | error stop c => simp only [hrun] at h; cases h
  | ok r c =>
    simp only [hrun] at h
    cases h
    obtain ⟨prepared, final, hprepare, hlowered, hfinish⟩ := lowerProgram_ok hrun
    obtain ⟨hdescriptor, hdata⟩ := finish_ok hfinish
    exact ⟨⟨order, horder, prepared, final, fragments, data, ⟨log, hprepare⟩, hlowered, hdescriptor,
      hdata⟩, rfl, rfl⟩

namespace Translation

variable {program : Program} (T : Translation program) {k : Nat} {f : Function}

theorem prepared_grows : ∃ log, (Context.initial program log).Grows T.prepared := by
  obtain ⟨log, hprepare⟩ := T.preparation
  exact ⟨log, prepare_grows hprepare⟩

theorem lowered : Threaded LowersTo T.prepared T.order T.fragments T.final :=
  lowerAll_threaded T.lowering_all

theorem length_fragments : T.fragments.length = T.order.length := T.lowered.length_eq.symm

theorem data_size : T.data.size = T.final.moduleData.size := by
  rw [T.data_eq]

theorem data_imports : T.data.imports = T.final.natives.map SysFunction.toImport := by
  rw [T.data_eq]

theorem grows_of_threaded {c c' : Context} {fs : List Function} {fragments : List Fragment}
    (h : Threaded LowersTo c fs fragments c') : c.Grows c' :=
  h.preserves Context.Grows.refl Context.Grows.trans LowersTo.grows

/-- The shared context starts with the handle and the path of the system module. -/
theorem final_grows : ∃ log, (Context.initial program log).Grows T.final := by
  obtain ⟨log, hgrows⟩ := T.prepared_grows
  exact ⟨log, hgrows.trans (grows_of_threaded T.lowered)⟩

/-- What is imported are functions of the system module. -/
theorem lookup?_of_imported {g : SysFunction} (h : g ∈ T.final.natives) :
    SysFunction.lookup? g.name = some g := by
  obtain ⟨log, hgrows⟩ := T.final_grows
  rcases hgrows.imported g h with hfirst | hlookup
  · -- every module imports `print`
    obtain rfl := List.mem_singleton.mp hfirst
    decide
  · exact hlookup

/-- **Every function was lowered** in a context of the program, and what it added was kept. -/
theorem lowered_at (hk : T.order[k]? = some f) :
    ∃ fragment c c', T.fragments[k]? = some fragment ∧ c.program = program ∧ c'.Grows T.final ∧
      lowerFunction f c = .ok fragment c' := by
  obtain ⟨fragment, c, c', hfragment, hbefore, hstep, hafter⟩ := T.lowered.split hk
  refine ⟨fragment, _, c', hfragment, ?_, grows_of_threaded hafter, hstep⟩
  obtain ⟨log, hgrows⟩ := T.prepared_grows
  exact (grows_of_threaded hbefore).program.trans hgrows.program

theorem lowering (hk : T.order[k]? = some f) :
    ∃ fragment c c', T.fragments[k]? = some fragment ∧ c.program = program ∧ c'.Grows T.final ∧
      Nonempty (Lowering f c fragment c') := by
  obtain ⟨fragment, c, c', hfragment, hprogram, hgrows, hlower⟩ := T.lowered_at hk
  exact ⟨fragment, c, c', hfragment, hprogram, hgrows, lowerFunction_lowering hlower⟩

/-- A fragment was lowered from one of the functions. -/
theorem lowering_of_fragment {k : Nat} {fragment : Fragment} (hk : T.fragments[k]? = some fragment) :
    ∃ f c c', c.program = program ∧ Nonempty (Lowering f c fragment c') := by
  have hlt : k < T.order.length := by
    rw [← T.length_fragments]
    exact (List.getElem?_eq_some_iff.mp hk).1
  obtain ⟨fragment', c, c', hfragment', hprogram, -, hlowering⟩ :=
    T.lowering (List.getElem?_eq_getElem hlt)
  rw [hk, Option.some.injEq] at hfragment'
  subst hfragment'
  exact ⟨_, c, c', hprogram, hlowering⟩

/-- A fragment has the name of its function. -/
theorem fragment_name (hk : T.order[k]? = some f) :
    ∃ fragment, T.fragments[k]? = some fragment ∧ fragment.name = f.name := by
  obtain ⟨fragment, _, _, hfragment, -, -, ⟨L⟩⟩ := T.lowering hk
  exact ⟨fragment, hfragment, L.fragment_name⟩

/-- **A call finds the function it names.** -/
theorem callee_eq {name : String} {target : Function} (hfound : program.function? name = some target)
    (hbody : target.isDeclaration = false) {j : Nat} {fragment : Fragment}
    (hj : T.fragments[j]? = some fragment) (hname : fragment.name = name) :
    T.order[j]? = some target := by
  have hlt : j < T.order.length := by
    rw [← T.length_fragments]
    exact (List.getElem?_eq_some_iff.mp hj).1
  have hg := List.getElem?_eq_getElem hlt
  obtain ⟨fragment', hfragment', hname'⟩ := T.fragment_name hg
  rw [hj, Option.some.injEq] at hfragment'
  subst hfragment'
  obtain ⟨hmem, htarget⟩ := Ssa.Program.mem_definitions hfound hbody
  have hperm := Ssa.Program.compileOrder?_perm T.selected
  have hsame := Ssa.Program.eq_of_name (hperm.subset (List.mem_of_getElem? hg)) hmem
    (hname'.symm.trans (hname.trans htarget.symm))
  rw [hg, hsame]

/-- The function that a call names is among those compiled. -/
theorem exists_callee {name : String} {target : Function} (hfound : program.function? name = some target)
    (hbody : target.isDeclaration = false) :
    ∃ (j : Nat) (fragment : Fragment), T.fragments[j]? = some fragment ∧ fragment.name = name := by
  obtain ⟨hmem, htarget⟩ := Ssa.Program.mem_definitions hfound hbody
  have hperm := Ssa.Program.compileOrder?_perm T.selected
  obtain ⟨j, hj⟩ := List.mem_iff_getElem?.mp (hperm.symm.subset hmem)
  obtain ⟨fragment, hfragment, hname⟩ := T.fragment_name hj
  exact ⟨j, fragment, hfragment, hname.trans htarget⟩

end Translation

/-! ## The whole -/

/-- A compilation that ended well, and what its stages left behind. -/
structure Compilation (options : CompileOptions) (program : Program) (compiled : CompiledModule)
    extends Translation program where
  assembly : Assembly (options.linkOptions program) fragments data compiled

/-- **A compilation that ended well has a `Compilation`.** -/
theorem compile_compilation {options : CompileOptions} {program : Program} {compiled : CompiledModule}
    {log log' : Log} (h : compile options program log = .ok compiled log') :
    Nonempty (Compilation options program compiled) := by
  unfold compile compileWith at h
  cases horder : program.compileOrder? with
  | none => rw [horder] at h; cases h
  | some order =>
    simp only [horder] at h
    obtain ⟨_, log₁, -, h⟩ := bind_ok_iff.mp h
    obtain ⟨⟨fragments, data⟩, log₂, hlower, h⟩ := bind_ok_iff.mp h
    obtain ⟨T, rfl, rfl⟩ := withContext_translation horder hlower
    obtain ⟨A⟩ := assemble_assembly (orStop_ok_iff.mp h)
    exact ⟨⟨T, A⟩⟩

namespace Compilation

variable {options : CompileOptions} {program : Program} {compiled : CompiledModule}
  (C : Compilation options program compiled)

/-- The symbols stand for the functions, in order. -/
theorem names_eq : compiled.symbols.map Symbol.name = C.order.map Function.name := by
  apply List.ext_getElem?
  intro k
  rw [List.getElem?_map, List.getElem?_map]
  cases hk : C.order[k]? with
  | some f =>
    obtain ⟨fragment, hfragment, hname⟩ := C.fragment_name hk
    rw [C.assembly.symbol hfragment, Option.map_some, Option.map_some, hname]
  | none =>
    have hsymbols : compiled.symbols[k]? = none := by
      rw [List.getElem?_eq_none_iff] at hk ⊢
      rw [C.assembly.length_symbols, C.length_fragments]
      exact hk
    rw [hsymbols]
    rfl

include C

/-- The first instruction loads the system module. -/
theorem code_first : compiled.module.code[0]? =
    some (.ternary .load (.mp sysPathOffset) (.imm 0) (.mp sysOffset)) := by
  rw [C.assembly.code_ends.1]
  unfold prologue
  rw [C.data_eq]

/-- There is one group of imports. -/
theorem imports_eq : compiled.module.imports = [C.final.natives.map SysFunction.toImport] := by
  rw [C.assembly.module_eq, ← C.data_imports]
  rfl

/-- A symbol is found by its name. -/
theorem symbol?_name {symbol : Symbol} (h : symbol ∈ compiled.symbols) :
    compiled.symbol? symbol.name = some symbol := by
  refine find?_of_nodup_map ?_ h
  rw [C.names_eq]
  exact ((Ssa.Program.compileOrder?_perm C.selected).map Function.name).nodup_iff.mpr
    program.nodup_definitions

/-- **A call goes to the symbol of its name.** -/
theorem symbol_of_callee {name : String} {placement : Placement}
    (h : calleeOf? C.fragments name = some placement) :
    ∃ (j : Nat) (symbol : Symbol), compiled.symbols[j]? = some symbol ∧
      compiled.symbol? name = some symbol ∧ placement = symbol.placement := by
  obtain ⟨j, fragment, hfragment, rfl, rfl, -⟩ := calleeOf?_ok h
  have hsymbol := C.assembly.symbol hfragment
  exact ⟨j, _, hsymbol, C.symbol?_name (List.mem_of_getElem? hsymbol), rfl⟩

end Compilation

end DisBackend
