import DisBackend.Proofs.Collector.Maps
import DisBackend.Proofs.Data.Cells
import Mathlib.Data.List.Perm.Subperm

/-!
# `Proofs.Data.Layout` — the words of module data

What a program needs from the start is found by a pass of its own, before any function is lowered. Here it
is shown that this pass finds all strings and all imports, so that lowering adds nothing but large
constants. From that follows where every word of module data is and what it is for.

## Contents

* `Instr.cells`, `Instr.natives`, `Emits.context_eq` — what lowering an instruction adds;
* `LowersTo.context_eq` — what lowering a function adds;
* `Translation.final_cells`, `Translation.final_natives` — and lowering all of them;
* `DataLayout`, `compile_data_layout` — the words of module data and the imports.
-/

namespace DisBackend

open Ssa (BlockId Constant Function Global Instr Program Ty ValueId)

/-! ## Instructions -/

namespace Ssa

/-- The cell that an instruction takes its constant from. -/
def Instr.cells : Instr → List Cell
  | .const _ value => value.cell?.toList
  | _ => []

/-- The function of the system module that an instruction calls. -/
def Instr.natives : Instr → List SysFunction
  | .callNative _ name _ => (SysFunction.lookup? name).toList
  | _ => []

/-- The constant that an instruction cannot hold itself: a real, or an integer that is too large. -/
def Instr.constant? : Instr → Option Cell
  | .const _ (.int n) => if Encodable n.toInt then none else some (.long n)
  | .const _ (.real r) => some (.real r)
  | _ => none

/-- The constants that the instructions of a function cannot hold, in order of appearance. -/
def Function.constants (f : Function) : List Cell := f.instructions.filterMap Instr.constant?

end Ssa

section Emission

variable {env : Env} {source : BlockId} {s s' : State}

theorem Moved.state_eq {moves : List Move} {lines : List Line} (h : Moved moves s lines s') :
    s' = { s with frame := s'.frame } := by
  cases h <;> rfl

theorem CallResult.state_eq {callFrame : Int} {result : Option Ty} {dst : Option ValueId}
    {lines : List Line} (h : CallResult env callFrame s result dst lines s') :
    s' = { s with frame := s'.frame } := by
  cases h <;> rfl

theorem NativeFrame.state_eq {native : SysFunction} {index : Nat} {slots : List Slot} {callFrame : Int}
    {line : Line} (h : NativeFrame native index slots callFrame s line s') :
    s' = { s with callSites := s'.callSites } := by
  cases h <;> rfl

theorem NativeResult.state_eq {native : SysFunction} {dst : Option ValueId} {offset : Int}
    (h : NativeResult env native s dst offset s') : s' = { s with frame := s'.frame } := by
  cases h <;> rfl

/-- **Lowering an instruction adds its constant and the function it calls,** if they are new. -/
theorem Emits.context_eq {i : Instr} {lines : List Line} (h : Emits env source s i lines s') :
    s'.context.cells = i.cells.foldl (addNew id) s.context.cells ∧
      s'.context.natives = i.natives.foldl (addNew SysFunction.name) s.context.natives := by
  cases h with
  | constNear hnear _ =>
    rw [Instr.cells, Constant.cell?, if_pos hnear]
    exact ⟨rfl, rfl⟩
  | constCell hcell _ hintern =>
    rw [Instr.cells, hcell]
    exact Context.context_of_intern hintern
  | call _ _ _ _ _ hresult =>
    rw [hresult.state_eq]
    exact ⟨rfl, rfl⟩
  | @callNative dst name arguments native slots index context frame result t _ hfound _ himport hframe
      hresult =>
    obtain ⟨index', himport'⟩ := Context.nativeImport_eq native s.context
    rw [himport] at himport'
    cases himport'
    rw [hresult.state_eq, hframe.state_eq, Instr.natives, hfound]
    exact ⟨rfl, rfl⟩
  | jump _ _ hmoved =>
    rw [hmoved.state_eq]
    exact ⟨rfl, rfl⟩
  | branchMoving _ _ _ _ _ _ helse hthen =>
    rw [hthen.state_eq, helse.state_eq]
    exact ⟨rfl, rfl⟩
  | _ => exact ⟨rfl, rfl⟩

end Emission

/-! ## Functions -/

theorem Lowering.final_eq {f : Function} {c c' : Context} {fragment : Fragment}
    (L : Lowering f c fragment c') :
    c'.cells = (f.instructions.flatMap Instr.cells).foldl (addNew id) c.cells ∧
      c'.natives = (f.instructions.flatMap Instr.natives).foldl (addNew SysFunction.name) c.natives := by
  have hcells := L.emitted_flat.foldl (fun s => s.context.cells)
    (fun cells p => p.2.cells.foldl (addNew id) cells) fun h => h.context_eq.1
  have hnatives := L.emitted_flat.foldl (fun s => s.context.natives)
    (fun natives p => p.2.natives.foldl (addNew SysFunction.name) natives) fun h => h.context_eq.2
  rw [L.context_cells, L.context_natives, hcells, hnatives, List.foldl_flatMap, List.foldl_flatMap,
    ← f.map_numbered, List.foldl_map, List.foldl_map]
  exact ⟨rfl, rfl⟩

/-- **Lowering a function adds the constants and the calls of its instructions,** if they are new. -/
theorem LowersTo.context_eq {f : Function} {c c' : Context} {fragment : Fragment}
    (h : LowersTo c f fragment c') :
    c'.cells = (f.instructions.flatMap Instr.cells).foldl (addNew id) c.cells ∧
      c'.natives = (f.instructions.flatMap Instr.natives).foldl (addNew SysFunction.name) c.natives := by
  obtain ⟨L⟩ := lowerFunction_lowering h
  exact L.final_eq

/-- Every system function that is called exists. -/
theorem Lowering.lookup?_of_call {f : Function} {c c' : Context} {fragment : Fragment}
    (L : Lowering f c fragment c') {name : String} (h : name ∈ f.nativeCalls) :
    ∃ native, SysFunction.lookup? name = some native := by
  obtain ⟨i, hi, hname⟩ := List.mem_filterMap.mp h
  rw [← f.map_numbered, List.mem_map] at hi
  obtain ⟨p, hp, rfl⟩ := hi
  obtain ⟨q, hq⟩ := List.mem_iff_getElem?.mp hp
  obtain ⟨lines, s, t, -, -, hemits, -⟩ := L.emitted_flat.split hq
  cases hi : p.2 with
  | callNative dst function arguments =>
    rw [hi] at hname hemits
    cases hname
    cases hemits with
    | callNative hfound => exact ⟨_, hfound⟩
  | _ =>
    rw [hi] at hname
    cases hname

/-! ## The program -/

namespace Ssa.Program

variable (p : Program)

theorem nodup_preparedCells : p.preparedCells.Nodup := by
  have hstrings : (p.strings.map Cell.string).Nodup :=
    (nodup_eraseDups _).map fun _ _ h => Cell.string.inj h
  have hglobals : (p.firstGlobals.map globalCell).Nodup := by
    refine List.Nodup.of_map Cell.globalName? ?_
    have hnames := (nodup_key_distinctBy Global.name p.globals).map fun _ _ h => Option.some.inj h
    rw [List.map_map] at hnames ⊢
    exact hnames
  unfold preparedCells
  refine List.Nodup.append (List.nodup_cons.mpr ⟨by simp, hstrings⟩) hglobals ?_
  intro cell hcell hglobal
  obtain ⟨g, -, rfl⟩ := List.mem_map.mp hglobal
  simp [globalCell] at hcell

theorem mem_strings {value : String} : value ∈ p.strings ↔
    value = SysFunction.modulePath ∨ ∃ f ∈ p.definitions, value ∈ f.stringLiterals := by
  rw [strings, List.mem_eraseDups, List.mem_cons, List.mem_flatMap]

theorem string_mem_preparedCells {value : String} :
    Cell.string value ∈ p.preparedCells ↔ value ∈ p.strings := by
  simp [preparedCells, globalCell]

/-- The path of the system module is the second cell. -/
theorem preparedCells_one : p.preparedCells[1]? = some (.string SysFunction.modulePath) := by
  unfold preparedCells strings
  rw [List.eraseDups_cons]
  rfl

variable {p} {f : Function} {i : Instr}

/-- Of the cells of an instruction, lowering adds the large constant. -/
theorem filter_cells (hf : f ∈ p.definitions) (hi : i ∈ f.instructions) :
    (i.cells.filter fun cell => cell ∉ p.preparedCells.map id) = i.constant?.toList := by
  rw [List.map_id]
  cases i with
  | const dst value =>
    cases value with
    | int n =>
      by_cases hnear : Encodable n.toInt
      · simp [Instr.cells, Instr.constant?, Constant.cell?, hnear]
      · simp [Instr.cells, Instr.constant?, Constant.cell?, hnear, preparedCells, globalCell]
    | real r => simp [Instr.cells, Instr.constant?, Constant.cell?, preparedCells, globalCell]
    | bool b => rfl
    | string value =>
      -- the literal was found before
      have hmem : value ∈ p.strings :=
        p.mem_strings.mpr (.inr ⟨f, hf, List.mem_filterMap.mpr ⟨_, hi, rfl⟩⟩)
      simp [Instr.cells, Instr.constant?, Constant.cell?, p.string_mem_preparedCells, hmem]
  | _ => rfl

theorem name_mem_natives (hf : f ∈ p.definitions) (hi : i ∈ f.instructions) {native : SysFunction}
    (h : native ∈ i.natives) : native.name ∈ p.natives.map SysFunction.name := by
  cases i with
  | callNative dst name arguments =>
    have hlookup : SysFunction.lookup? name = some native := Option.mem_toList.mp h
    unfold natives
    rw [map_key_distinctBy, List.mem_eraseDups]
    refine List.mem_map_of_mem (List.mem_cons_of_mem _ (List.mem_filterMap.mpr ⟨name, ?_, hlookup⟩))
    exact List.mem_flatMap.mpr ⟨f, hf, List.mem_filterMap.mpr ⟨_, hi, rfl⟩⟩
  | _ => cases h

theorem lookup?_of_mem_natives {native : SysFunction} (h : native ∈ p.natives) :
    SysFunction.lookup? native.name = some native := by
  rcases List.mem_cons.mp ((distinctBy_sublist _).subset h) with rfl | hmem
  · decide
  · obtain ⟨name, -, hlookup⟩ := List.mem_filterMap.mp hmem
    exact SysFunction.lookup?_name hlookup

variable (p) in
/-- Every function is imported once at most. -/
theorem length_natives : p.natives.length ≤ SysFunction.all.length := by
  have hnodup : p.natives.Nodup := (nodup_key_distinctBy _ _).of_map
  have hall : ∀ f ∈ p.natives, f ∈ SysFunction.all := fun f hf =>
    List.mem_of_find?_eq_some (lookup?_of_mem_natives hf)
  exact (hnodup.subperm hall).length_le

/-- The words of module data, when the functions are compiled in the given order. -/
def dataCells (p : Program) (order : List Function) : List Cell :=
  .handle :: p.strings.map .string ++ p.firstGlobals.map globalCell
    ++ (order.flatMap Function.constants).eraseDups

end Ssa.Program

namespace Translation

variable {program : Program} (T : Translation program)

theorem prepared_eq : T.prepared.cells = program.preparedCells ∧ T.prepared.natives = program.natives := by
  obtain ⟨log, hprepare⟩ := T.preparation
  rcases prepare_outcome program log with ⟨-, log', hok⟩ | ⟨-, fault, c, herror⟩
  · rw [hprepare, EStateM.Result.ok.injEq] at hok
    rw [hok.2]
    exact ⟨rfl, rfl⟩
  · rw [hprepare] at herror
    cases herror

theorem mem_definitions {f : Function} (h : f ∈ T.order) : f ∈ program.definitions :=
  (Ssa.Program.compileOrder?_perm T.selected).subset h

/-- **Lowering adds large constants to module data, and nothing else.** -/
theorem final_cells : T.final.cells = program.dataCells T.order := by
  have hrun := T.lowered.foldl Context.cells
    (fun cells f => (f.instructions.flatMap Instr.cells).foldl (addNew id) cells)
    fun h => h.context_eq.1
  have hfilter : ((T.order.flatMap fun f => f.instructions.flatMap Instr.cells).filter
      fun cell => id cell ∉ program.preparedCells.map id) = T.order.flatMap Function.constants := by
    rw [List.filter_flatMap]
    refine List.flatMap_congr fun f hf => ?_
    rw [List.filter_flatMap, Ssa.Function.constants, List.filterMap_eq_flatMap_toList]
    exact List.flatMap_congr fun i hi => Ssa.Program.filter_cells (T.mem_definitions hf) hi
  rw [hrun, ← List.foldl_flatMap, T.prepared_eq.1, foldl_addNew (by simpa using program.nodup_preparedCells),
    distinctBy_append (by simpa using program.nodup_preparedCells), hfilter]
  rfl

/-- **Lowering adds no import.** -/
theorem final_natives : T.final.natives = program.natives := by
  have hrun := T.lowered.foldl Context.natives
    (fun natives f => (f.instructions.flatMap Instr.natives).foldl (addNew SysFunction.name) natives)
    fun h => h.context_eq.2
  rw [hrun, ← List.foldl_flatMap, T.prepared_eq.2]
  refine foldl_addNew_of_subset fun native hnative => ?_
  obtain ⟨f, hf, hnative⟩ := List.mem_flatMap.mp hnative
  obtain ⟨i, hi, hnative⟩ := List.mem_flatMap.mp hnative
  exact Ssa.Program.name_mem_natives (T.mem_definitions hf) hi hnative

include T in
/-- The names of the imports, each once. -/
theorem map_name_natives : program.natives.map SysFunction.name =
    (SysFunction.print.name :: program.definitions.flatMap Function.nativeCalls).eraseDups := by
  have hknown : ∀ name ∈ program.definitions.flatMap Function.nativeCalls,
      (SysFunction.lookup? name).map SysFunction.name = some name := by
    intro name hname
    obtain ⟨f, hf, hcall⟩ := List.mem_flatMap.mp hname
    obtain ⟨k, hk⟩ := List.mem_iff_getElem?.mp ((Ssa.Program.compileOrder?_perm T.selected).symm.subset hf)
    obtain ⟨_, _, _, -, -, -, ⟨L⟩⟩ := T.lowering hk
    obtain ⟨native, hlookup⟩ := L.lookup?_of_call hcall
    rw [hlookup, Option.map_some]
    exact congrArg some (by simpa using List.find?_some hlookup)
  have hnames : ((program.definitions.flatMap Function.nativeCalls).filterMap SysFunction.lookup?).map
      SysFunction.name = program.definitions.flatMap Function.nativeCalls := by
    rw [List.map_filterMap, List.filterMap_congr hknown, List.filterMap_some]
  rw [Ssa.Program.natives, map_key_distinctBy, List.map_cons, hnames]

end Translation

/-! ## Items -/

/-- The loader fills the cell. -/
def Cell.isFilled : Cell → Bool
  | .handle | .global .. => false
  | .string _ | .long _ | .real _ => true

theorem Cell.offset_of_item? {offset : Int} {cell : Cell} {item : DataItem}
    (h : cell.item? offset = some item) : item.offset = offset := by
  cases cell with
  | handle | global => cases h
  | string | long | real => cases h; rfl

/-- The items of cells that are numbered from `start` on. -/
def itemsFrom (start : Nat) (cells : List Cell) : List DataItem :=
  (cells.zipIdx start).filterMap fun (cell, k) => cell.item? (wordOffset 0 k)

theorem itemsFrom_cons (start : Nat) (cell : Cell) (cells : List Cell) : itemsFrom start (cell :: cells) =
    (cell.item? (wordOffset 0 start)).toList ++ itemsFrom (start + 1) cells := by
  unfold itemsFrom
  rw [List.zipIdx_cons, List.filterMap_cons]
  cases cell <;> rfl

theorem mem_itemsFrom {cells : List Cell} {item : DataItem} : item ∈ itemsFrom 0 cells ↔
    ∃ (k : Nat) (cell : Cell), cells[k]? = some cell ∧ cell.item? (wordOffset 0 k) = some item := by
  simp only [itemsFrom, List.mem_filterMap, Prod.exists, List.mem_zipIdx_iff_getElem?]
  exact exists_comm

theorem length_itemsFrom (start : Nat) (cells : List Cell) :
    (itemsFrom start cells).length = cells.countP Cell.isFilled := by
  induction cells generalizing start with
  | nil => rfl
  | cons cell cells ih =>
    rw [itemsFrom_cons, List.length_append, ih, List.countP_cons, Nat.add_comm]
    cases cell <;> rfl

theorem itemsFrom_increasing (start : Nat) (cells : List Cell) :
    ((itemsFrom start cells).map DataItem.offset).Pairwise (· < ·) := by
  unfold itemsFrom
  rw [List.pairwise_map, List.pairwise_filterMap, List.pairwise_iff_getElem]
  intro j k hj hk hjk item hitem item' hitem'
  simp only [List.getElem_zipIdx] at hitem hitem'
  rw [Cell.offset_of_item? hitem, Cell.offset_of_item? hitem', wordOffset_lt_iff]
  omega

/-- What lowering adds is a number. -/
theorem number_of_constant {order : List Function} {cell : Cell}
    (h : cell ∈ (order.flatMap Function.constants).eraseDups) :
    (∃ n, cell = .long n) ∨ ∃ r, cell = .real r := by
  obtain ⟨f, -, hf⟩ := List.mem_flatMap.mp (List.mem_eraseDups.mp h)
  obtain ⟨i, -, hi⟩ := List.mem_filterMap.mp hf
  unfold Instr.constant? at hi
  split at hi
  · split at hi
    · cases hi
    · cases hi
      exact .inl ⟨_, rfl⟩
  · cases hi
    exact .inr ⟨_, rfl⟩
  · cases hi

theorem Ssa.Program.string_mem_dataCells (p : Program) (order : List Function) {value : String} :
    Cell.string value ∈ p.dataCells order ↔ value ∈ p.strings := by
  rw [← p.string_mem_preparedCells]
  refine List.mem_append.trans (or_iff_left fun h => ?_)
  rcases number_of_constant h with ⟨n, hn⟩ | ⟨r, hr⟩
  · cases hn
  · cases hr

/-- The strings and the constants are filled, one item for each. -/
theorem Ssa.Program.countP_dataCells (p : Program) (order : List Function) :
    (p.dataCells order).countP Cell.isFilled =
      p.strings.length + (order.flatMap Function.constants).eraseDups.length := by
  have hconstants : (order.flatMap Function.constants).eraseDups.countP Cell.isFilled =
      (order.flatMap Function.constants).eraseDups.length := by
    refine List.countP_eq_length.mpr fun cell hcell => ?_
    rcases number_of_constant hcell with ⟨n, rfl⟩ | ⟨r, rfl⟩ <;> rfl
  have hstrings : p.strings.countP (Cell.isFilled ∘ Cell.string) = p.strings.length :=
    List.countP_eq_length.mpr fun _ _ => rfl
  have hglobals : p.firstGlobals.countP (Cell.isFilled ∘ globalCell) = 0 :=
    List.countP_eq_zero.mpr fun _ _ => Bool.false_ne_true
  rw [dataCells, List.countP_append, List.countP_append, List.countP_cons_of_neg (by decide), List.countP_map,
    List.countP_map, hconstants, hstrings, hglobals, Nat.add_zero]

/-! ## The layout -/

/-- The data and the imports of a module that was compiled from `p`, the functions in the given order. -/
structure DataLayout (p : Program) (order : List Function) (m : Module) : Prop where
  /-- There is one group of imports: `print`, then what is called, each once. -/
  imports : ∃ group, m.imports = [group] ∧
    group.map Import.name = ("print" :: p.definitions.flatMap Function.nativeCalls).eraseDups ∧
    ∀ i ∈ group, ∃ f, SysFunction.lookup? i.name = some f ∧ i = f.toImport
  /-- Every cell takes one word. -/
  size : m.dataSize = wordBytes * (p.dataCells order).length
  /-- The loader fills the strings and the constants, -/
  items : m.data = itemsFrom 0 (p.dataCells order)
  /-- with one item for each, -/
  count : m.data.length = p.strings.length + (order.flatMap Function.constants).eraseDups.length
  /-- in the order of their offsets. -/
  increasing : (m.data.map DataItem.offset).Pairwise (· < ·)
  /-- The garbage collector follows the handle, the strings and the globals that are pointers. -/
  descriptor : ∃ d, m.types[0]? = some d ∧ d.size = m.dataSize ∧ ∀ offset : Int,
    offset ∈ d.pointerOffsets ↔ ∃ k : Nat, offset = wordBytes * k ∧
      ((p.dataCells order)[k]? = some .handle ∨
        (∃ value, (p.dataCells order)[k]? = some (.string value)) ∨
        ∃ name ty, (p.dataCells order)[k]? = some (.global name ty) ∧ ty.isPointer = true)

theorem Cell.isPointer_iff {cell : Cell} : cell.isPointer = true ↔
    cell = .handle ∨ (∃ value, cell = .string value) ∨
      ∃ name ty, cell = .global name ty ∧ ty.isPointer = true := by
  cases cell <;> simp [isPointer]

namespace Compilation

variable {options : CompileOptions} {program : Program} {compiled : CompiledModule}
  (C : Compilation options program compiled)

include C

theorem data_eq_items : compiled.module.data = itemsFrom 0 (program.dataCells C.order) := by
  rw [C.assembly.module_eq, ← C.final_cells]
  show C.data.items = C.final.items
  rw [C.data_eq]

theorem dataSize_eq : compiled.module.dataSize = wordBytes * (program.dataCells C.order).length := by
  have hsize : compiled.module.dataSize = C.final.moduleData.size := by
    rw [C.assembly.module_eq, ← C.data_size]
    rfl
  have hcells : C.final.cells ≠ [] := by
    rw [C.final_cells]
    exact List.cons_ne_nil _ _
  rw [hsize, Context.size_moduleData hcells, C.final_cells]

theorem pointers_of_data {offset : Int} : offset ∈ C.data.descriptor.pointerOffsets ↔
    ∃ (k : Nat) (cell : Cell), (program.dataCells C.order)[k]? = some cell ∧ cell.isPointer = true ∧
      offset = wordBytes * k := by
  rw [mem_pointerOffsets_of_describe C.data_descriptor zero_eq_words]
  refine exists_congr fun k => ?_
  rw [Context.moduleData, C.final_cells, List.getElem?_map, Option.map_eq_some_iff]
  constructor
  · rintro ⟨⟨cell, hcell, hpointer⟩, rfl⟩
    exact ⟨cell, hcell, hpointer, Int.zero_add _⟩
  · rintro ⟨cell, hcell, hpointer, rfl⟩
    exact ⟨⟨cell, hcell, hpointer⟩, Int.zero_add _⟩

theorem dataLayout : DataLayout program C.order compiled.module where
  imports := by
    refine ⟨_, C.imports_eq, ?_, fun i hi => ?_⟩
    · rw [C.final_natives, List.map_map]
      exact C.map_name_natives
    · obtain ⟨f, hf, rfl⟩ := List.mem_map.mp hi
      exact ⟨f, C.lookup?_of_imported hf, rfl⟩
  size := C.dataSize_eq
  items := C.data_eq_items
  count := by rw [C.data_eq_items, length_itemsFrom, program.countP_dataCells]
  increasing := by
    rw [C.data_eq_items]
    exact itemsFrom_increasing _ _
  descriptor := by
    refine ⟨C.data.descriptor, by rw [C.assembly.types_eq]; rfl, ?_, fun offset => ?_⟩
    · rw [(describe_ok C.data_descriptor).2, C.assembly.module_eq, ← C.data_size]
      rfl
    · rw [C.pointers_of_data]
      refine exists_congr fun k => ⟨?_, ?_⟩
      · rintro ⟨cell, hcell, hpointer, rfl⟩
        rw [hcell]
        exact ⟨rfl, by simpa using Cell.isPointer_iff.mp hpointer⟩
      · rintro ⟨rfl, hcell | ⟨value, hcell⟩ | ⟨name, ty, hcell, hpointer⟩⟩
        · exact ⟨_, hcell, rfl, rfl⟩
        · exact ⟨_, hcell, rfl, rfl⟩
        · exact ⟨_, hcell, hpointer, rfl⟩

end Compilation

/-- **The layout of module data and of the imports.** What is needed from the start is found before any
function is lowered: lowering adds the large constants to module data, and neither a string nor an
import. -/
theorem compile_data_layout {options : CompileOptions} {program : Program} {compiled : CompiledModule}
    {log log' : Log} (h : compile options program log = .ok compiled log') :
    ∃ order, program.compileOrder? = some order ∧ DataLayout program order compiled.module ∧
      ∃ log₁ prepared fragments final, prepare program (Context.initial program log₁) = .ok () prepared ∧
        lowerAll lowerFunction order prepared = .ok fragments final ∧
        final.cells = program.dataCells order ∧
        final.cells = prepared.cells ++ (order.flatMap Function.constants).eraseDups ∧
        final.natives = prepared.natives := by
  obtain ⟨C⟩ := compile_compilation h
  obtain ⟨log₁, hprepare⟩ := C.preparation
  refine ⟨C.order, C.selected, C.dataLayout, log₁, C.prepared, C.fragments, C.final, hprepare,
    C.lowering_all, C.final_cells, ?_, ?_⟩
  · rw [C.final_cells, C.prepared_eq.1]
    rfl
  · rw [C.final_natives, C.prepared_eq.2]

/-! ## A program that needs all kinds of words -/

/-- Uses a string twice, the path of the system module, an integer that is just too large and a zero. -/
def cabinetDrawer : Function where
  name := "drawer"
  parameters := []
  result := none
  blocks := [
    ⟨[.const ⟨0⟩ (.string "b"), .const ⟨1⟩ (.string "$Sys"), .const ⟨2⟩ (.string "b"),
      .const ⟨3⟩ (.int 0x20000000), .const ⟨4⟩ (.real ⟨0⟩), .callNative none "sprint" [⟨0⟩], .ret none]⟩]

/-- Uses the other zero, the same integer and the one before it. -/
def cabinetMain : Function where
  name := "main"
  parameters := []
  result := none
  blocks := [
    ⟨[.const ⟨0⟩ (.real ⟨0x8000000000000000⟩), .const ⟨1⟩ (.int 0x20000000), .const ⟨2⟩ (.string "a"),
      .const ⟨3⟩ (.string "b"), .const ⟨4⟩ (.int 0x1fffffff), .callNative none "print" [⟨2⟩],
      .call none "drawer" [], .ret none]⟩]

/-- A program that repeats a function and a global and declares another function. The string of the function
that is ignored is in no module. -/
def cabinet : Program where
  sourcePath := "cabinet"
  globals := [⟨"g", .string⟩, ⟨"h", .int⟩, ⟨"g", .real⟩]
  functions := [cabinetDrawer, { cabinetDrawer with name := "door", blocks := [] }, cabinetMain,
    { cabinetDrawer with blocks := [⟨[.const ⟨0⟩ (.string "ignored"), .ret none]⟩] }]

/-- The strings come in the order of the program and the constants in that of the module, which starts with
the entry function. -/
theorem compile_data_layout_cabinet : ∃ compiled log, compile {} cabinet #[] = .ok compiled log ∧
    DataLayout cabinet [cabinetMain, cabinetDrawer] compiled.module ∧
    cabinet.dataCells [cabinetMain, cabinetDrawer] =
      [.handle, .string "$Sys", .string "b", .string "a", .global "g" .string, .global "h" .int,
        .real ⟨0x8000000000000000⟩, .long 0x20000000, .real ⟨0⟩] ∧
    compiled.module.dataSize = 72 ∧
    compiled.module.data = [.string 8 "$Sys", .string 16 "b", .string 24 "a",
      .reals 48 [⟨0x8000000000000000⟩], .longs 56 [0x20000000], .reals 64 [⟨0⟩]] := by
  have hsome : (compiled? cabinet).isSome = true := by decide +kernel
  obtain ⟨compiled, hcompiled⟩ := Option.isSome_iff_exists.mp hsome
  obtain ⟨log, h⟩ := compile_of_compiled? hcompiled
  obtain ⟨order, horder, hlayout, -⟩ := compile_data_layout h
  have horder' : cabinet.compileOrder? = some [cabinetMain, cabinetDrawer] := by decide +kernel
  rw [horder', Option.some.injEq] at horder
  subst horder
  have hcells : cabinet.dataCells [cabinetMain, cabinetDrawer] =
      [.handle, .string "$Sys", .string "b", .string "a", .global "g" .string, .global "h" .int,
        .real ⟨0x8000000000000000⟩, .long 0x20000000, .real ⟨0⟩] := by decide +kernel
  refine ⟨compiled, log, h, hlayout, hcells, ?_, ?_⟩
  · rw [hlayout.size, hcells]
    rfl
  · rw [hlayout.items, hcells]
    rfl

end DisBackend
