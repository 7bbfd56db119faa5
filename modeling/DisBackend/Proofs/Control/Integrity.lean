import DisBackend.Proofs.Collector.Maps
import DisBackend.Proofs.Control.Targets

/-!
# `Proofs.Control.Integrity` — control stays where the program says

A compiled module is a row of functions after one instruction that loads the system module. Control enters a
function at its start only, by a call that names it or by coming from that first instruction; it moves
inside the function, and leaves it by a call or by returning.

## Contents

* `Symbol.Contains`, `Tiles` — the addresses of functions, one range after the other;
* `Function.callees`, `Lowering.calls` — the calls of a function, in order;
* `CompiledModule.ControlFlow`, `compile_control_flow` — the integrity of control flow.
-/

namespace DisBackend

open Ssa (BlockId Function Instr Program Ty ValueId)

/-! ## Ranges -/

/-- `pc` is the address of an instruction of the function. -/
def Symbol.Contains (symbol : Symbol) (pc : Int) : Prop :=
  symbol.address ≤ pc ∧ pc < symbol.address + symbol.length

/-- The functions lie one after the other, the first at `start`. -/
inductive Tiles : Int → List Symbol → Prop where
  | nil {start : Int} : Tiles start []
  | cons {start : Int} {symbol : Symbol} {rest : List Symbol} (first : symbol.address = start)
      (others : Tiles (start + symbol.length) rest) : Tiles start (symbol :: rest)

theorem tiles_placeFrom (frameId address : Int) (fragments : List Fragment) :
    Tiles address (placeFrom frameId address fragments) := by
  induction fragments generalizing frameId address with
  | nil => exact .nil
  | cons f rest ih => exact .cons rfl (ih _ _)

namespace Tiles

variable {start : Int} {symbols : List Symbol}

/-- The ranges leave nothing out. -/
theorem exists_contains_iff (h : Tiles start symbols) (pc : Int) :
    (∃ symbol ∈ symbols, symbol.Contains pc) ↔
      start ≤ pc ∧ pc < start + (symbols.map Symbol.length).sum := by
  induction h with
  | nil =>
    simp only [List.not_mem_nil, false_and, exists_false, List.map_nil, List.sum_nil, false_iff]
    omega
  | @cons start symbol rest first _ ih =>
    have hsplit : (∃ t ∈ symbol :: rest, t.Contains pc) ↔
        symbol.Contains pc ∨ ∃ t ∈ rest, t.Contains pc := by
      simp only [List.mem_cons, exists_eq_or_imp]
    rw [hsplit, ih, Symbol.Contains, first, List.map_cons, List.sum_cons]
    omega

theorem le_of_contains (h : Tiles start symbols) {symbol : Symbol} (hmem : symbol ∈ symbols) {pc : Int}
    (hpc : symbol.Contains pc) : start ≤ pc :=
  ((h.exists_contains_iff pc).mp ⟨symbol, hmem, hpc⟩).1

/-- No address lies in two ranges. -/
theorem pairwise (h : Tiles start symbols) :
    symbols.Pairwise fun s t => ∀ pc, ¬ (s.Contains pc ∧ t.Contains pc) := by
  induction h with
  | nil => exact List.Pairwise.nil
  | @cons start symbol rest first others ih =>
    refine List.pairwise_cons.mpr ⟨fun t ht pc => ?_, ih⟩
    rintro ⟨⟨-, hend⟩, hlater⟩
    -- what comes after the first range starts where it ends
    have hstart := others.le_of_contains ht hlater
    omega

end Tiles

/-! ## Calls -/

namespace Ssa

/-- The function of the program that an instruction calls. -/
def Instr.callee? : Instr → Option String
  | .call _ callee _ => some callee
  | _ => none

/-- The functions of the program that are called, in the order of the instructions. -/
def Function.callees (f : Function) : List String := f.instructions.filterMap Instr.callee?

end Ssa

theorem Line.opcode_linked (starts : List Nat) (place : Place) (n : Nat) (line : Line) :
    (line.linked starts place n).opcode = line.instruction.opcode := by
  unfold Line.linked
  cases line.fixup with
  | callee kind name => cases kind <;> rfl
  | _ => rfl

/-- Of the lines of an instruction, only the last line of a call calls a function of the program. -/
theorem Emits.calls {env : Env} {source : BlockId} {s s' : State} {j : Instr} {lines : List Line}
    (h : Emits env source s j lines s') :
    lines.filter (·.instruction.opcode = .call) = j.callee?.toList.map fun name =>
      ⟨.binary .call (.fp s.frame.size) (.imm 0), .callee .callAddress name⟩ := by
  by_cases hcall : ∃ dst callee arguments, j = .call dst callee arguments
  · obtain ⟨dst, callee, arguments, rfl⟩ := hcall
    cases h with
    | @call _ _ _ target slots result _ _ _ _ _ _ hresult =>
      have hmove (ty : Ty) : moveOpcode ty ≠ .call := by cases ty <;> exact nofun
      have harguments : (argumentLines s.frame.size slots).filter (·.instruction.opcode = .call) = [] := by
        refine List.filter_eq_nil_iff.mpr fun line hline => ?_
        obtain ⟨k, hk, rfl⟩ := List.mem_mapIdx.mp hline
        rw [decide_eq_true_eq]
        exact hmove slots[k].ty
      have hresults : result.filter (·.instruction.opcode = .call) = [] := by
        generalize target.result = ty at hresult
        cases hresult <;> rfl
      rw [List.filter_append, List.filter_append, List.filter_cons, harguments, hresults]
      rfl
  · have hnone : j.callee? = none := by
      cases j with
      | call dst callee arguments => exact absurd ⟨dst, callee, arguments, rfl⟩ hcall
      | _ => rfl
    rw [hnone, Option.toList_none, List.map_nil, List.filter_eq_nil_iff]
    intro line hline hopcode
    obtain ⟨r, hr⟩ := List.mem_iff_getElem?.mp hline
    rw [decide_eq_true_eq] at hopcode
    cases h.form hr with
    | plain hbranch => rw [show _ = Opcode.call from hopcode] at hbranch; cases hbranch
    | site hmaker => rcases hmaker with rfl | rfl <;> cases hopcode
    | ahead _ hnot => exact hnot hopcode
    | block _ hnot => exact hnot hopcode
    | frame => cases hopcode
    | call hcalls =>
      obtain ⟨⟨dst, arguments, rfl⟩, -⟩ := hcalls
      exact hcall ⟨dst, _, arguments, rfl⟩

/-- The calls in the code of a function in its place are those of the program, in order, and each goes to
the callee's address. -/
theorem Lowering.calls {f : Function} {c c' : Context} {fragment : Fragment} (L : Lowering f c fragment c')
    {place : Place} {linked : LinkedFragment} (h : fragment.LinkedAs place linked) :
    List.Forall₂ (fun i name => ∃ placement, place.callee? name = some placement ∧
        i.dst = .imm placement.address)
      (linked.code.filter (·.opcode = .call)) f.callees := by
  obtain ⟨T⟩ := L.trace
  unfold Ssa.Function.callees
  rw [← L.flatten_sections h, List.filter_flatten, ← f.map_numbered, List.filterMap_eq_flatMap_toList,
    List.flatMap_map, List.flatMap_def]
  refine List.rel_flatten ?_
  rw [List.forall₂_map_left_iff, List.forall₂_map_right_iff, List.forall₂_iff_get]
  refine ⟨L.length_sections place, fun q hq hq' => ?_⟩
  -- section number `q` has the opcodes of the lines it comes from
  obtain ⟨lines, hlines, hsection⟩ := L.section_at (List.getElem?_eq_getElem hq)
  have hnumbered : f.numbered[q]? = some f.numbered[q] := List.getElem?_eq_getElem hq'
  have hcalls := (T.emits q _ _ _ hnumbered hlines).calls
  have hlinked : List.Forall₂ (fun i line => ∃ r : Nat, lines[r]? = some line ∧
      i = Line.linked L.starts place (L.pieceStart q + r) line) (L.sections place)[q] lines := by
    rw [hsection, List.forall₂_iff_get]
    refine ⟨List.length_mapIdx, fun r hr hr' => ⟨r, List.getElem?_eq_getElem hr', ?_⟩⟩
    simp
  have hopcode : List.Forall₂ _ _ _ := List.rel_filter (p := fun i : Instruction => i.opcode = .call)
    (q := fun line : Line => line.instruction.opcode = .call) (fun i line hline => by
      obtain ⟨r, -, rfl⟩ := hline
      show decide (_ = Opcode.call) = true ↔ decide (_ = Opcode.call) = true
      rw [Line.opcode_linked]) hlinked
  show List.Forall₂ _ ((L.sections place)[q].filter _) f.numbered[q].2.callee?.toList
  rw [hcalls, List.forall₂_map_right_iff] at hopcode
  refine hopcode.imp fun i name hi => ?_
  obtain ⟨r, hr, rfl⟩ := hi
  obtain ⟨placement, hplacement⟩ := L.callee_placed h (L.line_of_piece hlines hr) rfl
  refine ⟨placement, hplacement, ?_⟩
  rw [Line.linked_callee hplacement]
  rfl

/-! ## All instructions -/

namespace Translation

variable {program : Program} (T : Translation program) {options : LinkOptions} {compiled : CompiledModule}

/-- The code of a function is not empty. -/
theorem code_pos {k : Nat} {fragment : Fragment} (hk : T.fragments[k]? = some fragment) :
    0 < fragment.code.length := by
  obtain ⟨f, c, c', -, ⟨L⟩⟩ := T.lowering_of_fragment hk
  rw [L.length_code]
  exact L.lines_pos

/-- Every instruction but the first one and a last `ret` is one of a function, and aims where those of the
function may. -/
theorem aims (D : Draft options T.fragments T.data compiled) {i : Instruction}
    (hi : i ∈ compiled.module.code) :
    i = prologue T.data ∨ i = .plain .ret ∨
      ∃ (k : Nat) (fragment : Fragment), T.fragments[k]? = some fragment ∧
        fragment.Aims ⟨startOf T.fragments k, callSiteStart T.fragments k, calleeOf? T.fragments⟩ i := by
  rcases D.instruction_cases hi with hfirst | hlast | ⟨k, fragment, l, hk, hlinked, hmem⟩
  · exact .inl hfirst
  · exact .inr (.inl hlast)
  · obtain ⟨f, c, c', -, ⟨L⟩⟩ := T.lowering_of_fragment hk
    obtain ⟨n, hn⟩ := List.mem_iff_getElem?.mp hmem
    exact .inr (.inr ⟨k, fragment, hk, L.aims hlinked hn⟩)

/-- **Every branch goes to an instruction of a function.** -/
theorem branchTarget_lt (D : Draft options T.fragments T.data compiled) {i : Instruction}
    (hi : i ∈ compiled.module.code) {target : Int} (htarget : i.branchTarget? = some target) :
    0 < target ∧ target < startOf T.fragments T.fragments.length := by
  have hstart (k : Nat) : 0 < startOf T.fragments k := by
    unfold startOf
    omega
  rcases T.aims D hi with rfl | rfl | ⟨k, fragment, hk, haims⟩
  · cases htarget
  · cases htarget
  · have hbranch : i.opcode.isBranch = true := by
      by_contra hnot
      unfold Instruction.branchTarget? at htarget
      rw [if_neg hnot] at htarget
      cases htarget
    unfold Instruction.branchTarget? at htarget
    rw [if_pos hbranch] at htarget
    have hk' := hstart k
    by_cases hcall : i.opcode = .call
    · -- a call goes to the first instruction of a function
      obtain ⟨name, placement, hplacement, hdst⟩ := haims.call hcall
      obtain ⟨j, callee, hj, -, rfl, -⟩ := calleeOf?_ok hplacement
      rw [hdst] at htarget
      cases htarget
      have hend := startOf_add_lt hj (T.code_pos hj)
      have hj' := hstart j
      show (0 : Int) < (startOf T.fragments j : Nat) ∧ ((startOf T.fragments j : Nat) : Int) < _
      omega
    · obtain ⟨n, hn, hdst⟩ := haims.branch hbranch hcall
      rw [hdst] at htarget
      cases htarget
      have hend := startOf_add_lt hk hn
      show (0 : Int) < n + (startOf T.fragments k : Nat) ∧ (n + (startOf T.fragments k : Nat) : Int) < _
      omega

end Translation

/-! ## The integrity of control flow -/

/-- The number of instructions of all functions. -/
def CompiledModule.functionsLength (compiled : CompiledModule) : Nat :=
  (compiled.symbols.map Symbol.length).sum

/-- Control leaves the code of the function `f`, which `symbol` names, only by returning, and by the calls
that the program makes. -/
structure CompiledModule.Confines (compiled : CompiledModule) (f : Function) (symbol : Symbol) : Prop where
  name : symbol.name = f.name
  length : (compiled.codeOf symbol).length = symbol.length
  nonempty : 0 < symbol.length
  branch : ∀ i ∈ compiled.codeOf symbol, i.opcode.isBranch = true → i.opcode ≠ .call →
    ∃ target, i.dst = .imm target ∧ symbol.Contains target
  /-- The calls of the code are those of the function, in order, and go to the symbols of their names. -/
  calls : List.Forall₂ (fun i name => ∃ callee, compiled.symbol? name = some callee ∧
      i.dst = .imm callee.address)
    ((compiled.codeOf symbol).filter (·.opcode = .call)) f.callees
  last : ∃ i, (compiled.codeOf symbol).getLast? = some i ∧ (i.opcode = .ret ∨ i.opcode = .jmp)

/-- Control flow in a module of the functions `functions`, in order. -/
structure CompiledModule.ControlFlow (compiled : CompiledModule) (program : Program)
    (functions : List Function) : Prop where
  confined : List.Forall₂ compiled.Confines functions compiled.symbols
  disjoint : compiled.symbols.Pairwise fun s t => ∀ pc, ¬ (s.Contains pc ∧ t.Contains pc)
  tiled : ∀ pc : Int, (∃ symbol ∈ compiled.symbols, symbol.Contains pc) ↔
    1 ≤ pc ∧ pc < 1 + compiled.functionsLength
  /-- Control starts with the load of the system module, and goes on to the entry function. -/
  entry : compiled.module.entryPc = 0 ∧
    compiled.module.code[0]? = some (.ternary .load (.mp sysPathOffset) (.imm 0) (.mp sysOffset)) ∧
    .string sysPathOffset SysFunction.modulePath ∈ compiled.module.data ∧
    ∃ symbol, compiled.symbols.head? = some symbol ∧ symbol.name = program.entry ∧ symbol.address = 1
  /-- After the functions there is at most a `ret`, which nothing goes to. -/
  closed : ∀ (pc : Nat) (i : Instruction), compiled.module.code[pc]? = some i →
    1 + compiled.functionsLength ≤ pc → pc = 1 + compiled.functionsLength ∧ i = .plain .ret ∧
      ∀ i' ∈ compiled.module.code, i'.branchTarget? ≠ some pc

namespace Compilation

variable {options : CompileOptions} {program : Program} {compiled : CompiledModule}
  (C : Compilation options program compiled)

theorem functionsLength_eq : 1 + compiled.functionsLength = startOf C.fragments C.fragments.length := by
  have hlengths : compiled.symbols.map Symbol.length = C.fragments.map fun f => f.code.length := by
    rw [C.assembly.symbols_eq_mapIdx]
    apply List.ext_getElem?
    intro k
    rw [List.getElem?_map, List.getElem?_mapIdx, List.getElem?_map, Option.map_map]
    rfl
  unfold startOf codeBefore CompiledModule.functionsLength
  rw [hlengths, List.take_length]

include C

/-- **Control stays in a function.** -/
theorem confines {k : Nat} {f : Function} {symbol : Symbol} (hk : C.order[k]? = some f)
    (hsymbol : compiled.symbols[k]? = some symbol) : compiled.Confines f symbol := by
  obtain ⟨fragment, c, c', hfragment, -, -, ⟨L⟩⟩ := C.lowering hk
  obtain ⟨l, hl, hlinked⟩ := C.assembly.fragment k fragment hfragment
  rw [C.assembly.symbol hfragment, Option.some.injEq] at hsymbol
  subst hsymbol
  have hcode : compiled.codeOf ⟨fragment.name, k + 1, startOf C.fragments k, fragment.code.length⟩
      = l.code := C.assembly.codeOf_eq hl rfl hlinked.length
  refine ⟨L.fragment_name, ?_, C.code_pos hfragment, fun i hi hbranch hcall => ?_, ?_, ?_⟩
  · rw [hcode]
    exact hlinked.length
  · rw [hcode] at hi
    obtain ⟨n, hn⟩ := List.mem_iff_getElem?.mp hi
    obtain ⟨m, hm, hdst⟩ := (L.aims hlinked hn).branch hbranch hcall
    refine ⟨_, hdst, ?_⟩
    show (startOf C.fragments k : Int) ≤ m + (startOf C.fragments k : Nat) ∧
      (m + (startOf C.fragments k : Nat) : Int) < startOf C.fragments k + fragment.code.length
    omega
  · rw [hcode]
    refine (L.calls hlinked).imp ?_
    rintro i name ⟨placement, hplacement, hdst⟩
    obtain ⟨-, symbol, -, hsymbol, rfl⟩ := C.symbol_of_callee hplacement
    exact ⟨symbol, hsymbol, hdst⟩
  · rw [hcode, L.code_linked hlinked]
    obtain ⟨front, line, hlines, hopcode⟩ := L.lines_end
    refine ⟨_, by rw [hlines, List.mapIdx_concat, List.getLast?_concat], ?_⟩
    rw [Line.opcode_linked]
    exact hopcode

/-- The path of the system module is in module data. -/
theorem path_mem : .string sysPathOffset SysFunction.modulePath ∈ compiled.module.data := by
  obtain ⟨log, hgrows⟩ := C.final_grows
  have hcell : C.final.cells[1]? = some (.string SysFunction.modulePath) := hgrows.cell rfl
  rw [C.assembly.module_eq]
  show _ ∈ C.data.items
  rw [C.data_eq]
  exact Context.item_of_cell hcell rfl

/-- The entry function lies behind the first instruction. -/
theorem entry_first : ∃ symbol, compiled.symbols.head? = some symbol ∧ symbol.name = program.entry ∧
    symbol.address = 1 := by
  obtain ⟨entry, rest, horder, hname⟩ := Ssa.Program.compileOrder?_head C.selected
  have hentry : C.order[0]? = some entry := by rw [horder]; rfl
  obtain ⟨fragment, hfragment, hfragmentName⟩ := C.fragment_name hentry
  refine ⟨_, List.head?_eq_getElem?.trans (C.assembly.symbol hfragment), hfragmentName.trans hname, rfl⟩

end Compilation

/-- **The control flow of a compiled module has integrity:** functions lie apart and are entered at their
starts only, control stays in each of them until it returns, and calls go where the program says. -/
theorem compile_control_flow {options : CompileOptions} {program : Program} {compiled : CompiledModule}
    {log log' : Log} (h : compile options program log = .ok compiled log') :
    ∃ order, program.compileOrder? = some order ∧ compiled.ControlFlow program order := by
  obtain ⟨C⟩ := compile_compilation h
  have htiles : Tiles 1 compiled.symbols := by
    rw [C.assembly.symbols_eq]
    exact tiles_placeFrom _ _ _
  have hlength := C.functionsLength_eq
  refine ⟨C.order, C.selected, ?_, htiles.pairwise, fun pc => ?_,
    ⟨?_, C.code_first, C.path_mem, C.entry_first⟩, fun pc i hi hpc => ?_⟩
  · rw [List.forall₂_iff_get]
    refine ⟨?_, fun k hk hk' => ?_⟩
    · rw [C.assembly.length_symbols, C.length_fragments]
    · exact C.confines (List.getElem?_eq_getElem hk) (List.getElem?_eq_getElem hk')
  · rw [htiles.exists_contains_iff]
    rfl
  · rw [C.assembly.module_eq]
    rfl
  · -- what lies behind the functions is a `ret`, and all branches go to instructions of functions
    have hends := C.assembly.code_ends.2
    have hdrop : (compiled.module.code.drop (startOf C.fragments C.fragments.length))[pc -
        (1 + compiled.functionsLength)]? = some i := by
      rw [List.getElem?_drop, ← hlength, Nat.add_sub_cancel' hpc]
      exact hi
    rcases hends with hends | hends
    · rw [hends] at hdrop
      cases hdrop
    · rw [hends, List.getElem?_singleton] at hdrop
      split at hdrop
      · next hzero =>
        cases hdrop
        refine ⟨by omega, rfl, fun i' hi' htarget => ?_⟩
        have hlt := (C.branchTarget_lt C.assembly.toDraft hi' htarget).2
        omega
      · cases hdrop

theorem compile_control_flow_shelf : ∃ compiled log, compile {} shelf #[] = .ok compiled log ∧
    compiled.symbols = shelfSymbols ∧ compiled.ControlFlow shelf [shelfMain, shelfLabel] ∧
    ∃ i, (compiled.codeOf ⟨"main", 1, 1, 23⟩).filter (·.opcode = .call) = [i] ∧ i.dst = .imm 24 := by
  obtain ⟨compiled, log, h, hsymbols, -⟩ := compile_shelf
  obtain ⟨order, horder, hflow⟩ := compile_control_flow h
  have horder' : shelf.compileOrder? = some [shelfMain, shelfLabel] := by decide +kernel
  rw [horder', Option.some.injEq] at horder
  subst horder
  refine ⟨compiled, log, h, hsymbols, hflow, ?_⟩
  have hconfined := hflow.confined
  rw [hsymbols] at hconfined
  -- the only call of `main` is that of `label`
  obtain ⟨hmain, -⟩ := List.forall₂_cons.mp hconfined
  have hcalls := hmain.calls
  have hcallees : shelfMain.callees = ["label"] := by decide
  rw [hcallees] at hcalls
  obtain ⟨i, rest, ⟨callee, hcallee, hdst⟩, hrest, heq⟩ := List.forall₂_cons_right_iff.mp hcalls
  rw [List.forall₂_nil_right_iff] at hrest
  subst hrest
  refine ⟨i, heq, ?_⟩
  unfold CompiledModule.symbol? at hcallee
  rw [hsymbols] at hcallee
  cases hcallee
  exact hdst

end DisBackend
