import DisBackend.Proofs.Compilation
import DisBackend.Proofs.Distinct

/-!
# `Proofs.Data.Cells` — the shared context before the first function

Module data grows by what is new until there is no room left. Which words it has is therefore known in
advance, and so is whether there is room for them: both are facts about lists, in which no computation
occurs.

## Contents

* `HasRoom`, `Context.Fills` — filling module data, or finding it too small;
* `Context.fills_intern`, `fills_declareGlobal` — one more cell, if it is new;
* `Program.natives`, `Program.strings`, `Program.firstGlobals`, `Program.preparedCells` — what a program
  needs from the start;
* `prepare_outcome` — the context that is prepared.
-/

namespace DisBackend

open Ssa (Function Global Program Ty)

/-- All of the cells are within reach of an operand. -/
def HasRoom (cells : List Cell) : Prop := wordOffset 0 cells.length ≤ operandMax

instance (cells : List Cell) : Decidable (HasRoom cells) :=
  inferInstanceAs (Decidable (wordOffset 0 cells.length ≤ operandMax))

theorem HasRoom.mono {cells cells' : List Cell} (h : HasRoom cells') (hle : cells.length ≤ cells'.length) :
    HasRoom cells := by
  unfold HasRoom wordOffset wordBytes at *
  omega

theorem length_le_addNew {α β : Type} [DecidableEq β] (key : α → β) (xs : List α) (x : α) :
    xs.length ≤ (addNew key xs x).length := by
  unfold addNew
  split <;> simp

namespace Context

/-! ## Filling module data -/

section Fills

variable {α : Type} {m : ContextM α} {c : Context} {cells : List Cell}

/-- `m` turns the cells of `c` into `cells` and leaves the rest but for the log. If there is no room for
`cells`, it fails. -/
def Fills (m : ContextM α) (c : Context) (cells : List Cell) : Prop :=
  (HasRoom cells ∧ ∃ a log, m c = .ok a { c with cells, log }) ∨
    (¬ HasRoom cells ∧ ∃ fault c', m c = .error fault c')

theorem Fills.of_ok (h : Fills m c cells) {a : α} {c' : Context} (hm : m c = .ok a c') :
    HasRoom cells ∧ ∃ log, c' = { c with cells, log } := by
  rcases h with ⟨hroom, b, log, hok⟩ | ⟨-, fault, t, herror⟩
  · rw [hm] at hok
    cases hok
    exact ⟨hroom, log, rfl⟩
  · rw [hm] at herror
    cases herror

theorem Fills.discard (h : Fills m c cells) : Fills (discard m) c cells := by
  rcases h with ⟨hroom, a, log, hok⟩ | ⟨hfull, fault, t, herror⟩
  · exact .inl ⟨hroom, (), log, map_ok_iff.mpr ⟨a, hok, rfl⟩⟩
  · refine .inr ⟨hfull, fault, t, ?_⟩
    show EStateM.map _ m c = _
    rw [EStateM.map, herror]

/-- One after the other. If there is no room for the first, there is none for both. -/
theorem Fills.bind {β : Type} {k : α → ContextM β} {cells' : List Cell} (h : Fills m c cells)
    (hk : ∀ a log, HasRoom cells → Fills (k a) { c with cells, log } cells')
    (hle : cells.length ≤ cells'.length) : Fills (m >>= k) c cells' := by
  rcases h with ⟨hroom, a, log, hok⟩ | ⟨hfull, fault, t, herror⟩
  · rcases hk a log hroom with ⟨hroom', b, log', hok'⟩ | ⟨hfull', fault, t, herror⟩
    · exact .inl ⟨hroom', b, log', by rw [bind_of_ok hok, hok']⟩
    · exact .inr ⟨hfull', fault, t, by rw [bind_of_ok hok, herror]⟩
  · refine .inr ⟨fun hroom => hfull (hroom.mono hle), fault, t, ?_⟩
    exact bind_of_error herror

/-- What each step does to the cells, a pass does one step after the other. -/
theorem fills_forM {α : Type} {g : α → ContextM Unit} (step : List Cell → α → List Cell)
    (hstep : ∀ a c, HasRoom c.cells → Fills (g a) c (step c.cells a))
    (hle : ∀ cells a, cells.length ≤ (step cells a).length) (as : List α) {c : Context}
    (hroom : HasRoom c.cells) : Fills (as.forM g) c (as.foldl step c.cells) := by
  have hlength : ∀ (as : List α) (cells : List Cell), cells.length ≤ (as.foldl step cells).length := by
    intro as
    induction as with
    | nil => exact fun cells => Nat.le_refl _
    | cons a as ih => exact fun cells => Nat.le_trans (hle cells a) (ih _)
  induction as generalizing c with
  | nil => exact .inl ⟨hroom, (), c.log, rfl⟩
  | cons a as ih =>
    refine (hstep a c hroom).bind (fun _ log hroom' => ?_) (hlength as _)
    exact ih (c := { c with cells := step c.cells a, log }) hroom'

end Fills

theorem fills_place (cell : Cell) (c : Context) : Fills (place cell) c (c.cells ++ [cell]) := by
  have hroom : HasRoom (c.cells ++ [cell]) ↔ wordOffset 0 c.cells.length ≤ operandMax - wordBytes := by
    unfold HasRoom wordOffset wordBytes
    rw [List.length_append, List.length_singleton]
    omega
  by_cases h : wordOffset 0 c.cells.length ≤ operandMax - wordBytes
  · exact .inl ⟨hroom.mpr h, _, _, place_ok_iff.mpr ⟨h, rfl, rfl⟩⟩
  · refine .inr ⟨fun h' => h (hroom.mp h'), ?_⟩
    cases hplace : place cell c with
    | ok offset c' => exact absurd (place_ok_iff.mp hplace).1 h
    | error fault c' => exact ⟨fault, c', rfl⟩

theorem offsetOf?_eq_none_iff {c : Context} {cell : Cell} : c.offsetOf? cell = none ↔ cell ∉ c.cells := by
  rw [offsetOf?, Option.map_eq_none_iff, List.idxOf?_eq_none_iff]

theorem intern_of_mem {c : Context} {cell : Cell} (h : cell ∈ c.cells) :
    ∃ offset, c.offsetOf? cell = some offset ∧ intern cell c = .ok offset c := by
  cases hfound : c.offsetOf? cell with
  | none => exact absurd h (offsetOf?_eq_none_iff.mp hfound)
  | some offset =>
    refine ⟨offset, rfl, ?_⟩
    unfold intern
    rw [hfound]

theorem intern_of_not_mem {c : Context} {cell : Cell} (h : cell ∉ c.cells) :
    intern cell c = place cell c := by
  unfold intern
  rw [offsetOf?_eq_none_iff.mpr h]

/-- **A cell is placed if it is new.** -/
theorem fills_intern (cell : Cell) {c : Context} (hroom : HasRoom c.cells) :
    Fills (intern cell) c (addNew id c.cells cell) := by
  unfold addNew
  rw [List.map_id, id]
  split
  · next hmem =>
    obtain ⟨offset, -, hintern⟩ := intern_of_mem hmem
    exact .inl ⟨hroom, offset, c.log, hintern⟩
  · next hnew =>
    unfold Fills
    rw [intern_of_not_mem hnew]
    exact fills_place cell c

/-- What interning a cell leaves behind. -/
theorem context_of_intern {cell : Cell} {c c' : Context} {offset : Int}
    (h : intern cell c = .ok offset c') :
    c'.cells = addNew id c.cells cell ∧ c'.natives = c.natives := by
  unfold addNew
  rw [List.map_id, id]
  split
  · next hmem =>
    obtain ⟨_, -, hintern⟩ := intern_of_mem hmem
    rw [hintern] at h
    cases h
    exact ⟨rfl, rfl⟩
  · next hnew =>
    rw [intern_of_not_mem hnew] at h
    obtain ⟨-, -, rfl⟩ := place_ok_iff.mp h
    exact ⟨rfl, rfl⟩

end Context

/-! ## Globals -/

/-- The name of the global that the cell is for. -/
def Cell.globalName? : Cell → Option String
  | .global name _ => some name
  | _ => none

/-- The cell of a global. -/
def globalCell (g : Global) : Cell := .global g.name g.ty

/-- Cells with that of one more global, unless there is one of its name. -/
def addGlobalCell (cells : List Cell) (g : Global) : List Cell :=
  if g.name ∈ cells.filterMap Cell.globalName? then cells else cells ++ [globalCell g]

theorem length_le_addGlobalCell (cells : List Cell) (g : Global) :
    cells.length ≤ (addGlobalCell cells g).length := by
  unfold addGlobalCell
  split <;> simp

theorem Context.findGlobal?_eq_none_iff {name : String} {index : Nat} {cells : List Cell} :
    findGlobal? name index cells = none ↔ name ∉ cells.filterMap Cell.globalName? := by
  induction cells generalizing index with
  | nil => simp [findGlobal?]
  | cons cell cells ih =>
    cases cell with
    | global n ty =>
      have hnames : (Cell.global n ty :: cells).filterMap Cell.globalName? =
        n :: cells.filterMap Cell.globalName? := rfl
      rw [findGlobal?, hnames, List.mem_cons, not_or]
      by_cases hn : n = name
      · simp [hn]
      · rw [if_neg hn, ih]
        exact (and_iff_right (Ne.symm hn)).symm
    | handle | string | long | real => exact ih

theorem Context.global?_eq_none_iff {c : Context} {name : String} :
    c.global? name = none ↔ name ∉ c.cells.filterMap Cell.globalName? :=
  findGlobal?_eq_none_iff

theorem Context.fills_addGlobal (g : Global) {c : Context} (hroom : HasRoom c.cells) :
    Fills (addGlobal g.name g.ty) c (addGlobalCell c.cells g) := by
  unfold addGlobalCell
  cases hfound : c.global? g.name with
  | some slot =>
    have hmem : g.name ∈ c.cells.filterMap Cell.globalName? := by
      by_contra hnew
      rw [global?_eq_none_iff.mpr hnew] at hfound
      cases hfound
    rw [if_pos hmem]
    refine .inl ⟨hroom, slot, c.log, ?_⟩
    unfold addGlobal
    rw [hfound]
  | none =>
    rw [if_neg (global?_eq_none_iff.mp hfound)]
    rcases fills_place (globalCell g) c with ⟨hroom', offset, log, hok⟩ | ⟨hfull, fault, t, herror⟩
    · refine .inl ⟨hroom', ⟨offset, g.ty⟩, log, ?_⟩
      simp only [addGlobal, hfound, show place (.global g.name g.ty) c = _ from hok]
    · refine .inr ⟨hfull, fault, t, ?_⟩
      simp only [addGlobal, hfound, show place (.global g.name g.ty) c = _ from herror]

/-- **A global is placed if its name is new.** -/
theorem fills_declareGlobal (g : Global) (c : Context) (hroom : HasRoom c.cells) :
    Context.Fills (declareGlobal g) c (addGlobalCell c.cells g) := by
  have hadd (log : Log) : Context.Fills (discard (Context.addGlobal g.name g.ty)) { c with log }
      (addGlobalCell c.cells g) :=
    (Context.fills_addGlobal g (c := { c with log }) hroom).discard
  have hreport (log : Log) :
      Context.Fills (Context.report (.duplicateGlobal g.name)) { c with log } c.cells :=
    .inl ⟨hroom, (), _, rfl⟩
  have hget : Context.Fills get c c.cells := .inl ⟨hroom, c, c.log, rfl⟩
  unfold declareGlobal
  refine hget.bind (fun t log _ => ?_) (length_le_addGlobalCell _ g)
  split
  · -- a repeated global is reported first
    exact (hreport log).bind (fun _ log' _ => hadd log') (length_le_addGlobalCell _ g)
  · exact hadd log

theorem filterMap_globalCell (gs : List Global) :
    (gs.map globalCell).filterMap Cell.globalName? = gs.map Global.name := by
  rw [List.filterMap_map, ← List.filterMap_eq_map]
  rfl

/-- Behind cells that are no globals, the first global of each name is placed. -/
theorem foldl_addGlobalCell {cells : List Cell} (hcells : cells.filterMap Cell.globalName? = [])
    (gs : List Global) :
    gs.foldl addGlobalCell cells = cells ++ (distinctBy Global.name gs).map globalCell := by
  have hstep (hs : List Global) (g : Global) :
      addGlobalCell (cells ++ hs.map globalCell) g = cells ++ (addNew Global.name hs g).map globalCell := by
    unfold addGlobalCell addNew
    rw [List.filterMap_append, hcells, List.nil_append, filterMap_globalCell]
    split
    · rfl
    · rw [List.map_append, List.map_singleton, List.append_assoc]
  have hrun (hs : List Global) : gs.foldl addGlobalCell (cells ++ hs.map globalCell)
      = cells ++ (gs.foldl (addNew Global.name) hs).map globalCell := by
    induction gs generalizing hs with
    | nil => rfl
    | cons g gs ih => rw [List.foldl_cons, hstep, ih, List.foldl_cons]
  have hall := hrun []
  rw [List.map_nil, List.append_nil, foldl_addNew (by simp), List.nil_append] at hall
  exact hall

/-! ## Imports -/

theorem Context.nativeImport_eq (f : SysFunction) (c : Context) : ∃ index,
    nativeImport f c = .ok index { c with natives := addNew SysFunction.name c.natives f } := by
  unfold nativeImport addNew
  cases hfound : c.natives.findIdx? (·.name == f.name) with
  | some index =>
    obtain ⟨hlt, hname, -⟩ := List.findIdx?_eq_some_iff_getElem.mp hfound
    rw [if_pos (List.mem_map.mpr ⟨_, List.getElem_mem hlt, by simpa using hname⟩)]
    exact ⟨index, rfl⟩
  | none =>
    rw [if_neg (findIdx?_key_eq_none_iff.mp hfound)]
    exact ⟨_, rfl⟩

theorem Context.forM_registerNative (names : List String) (c : Context) :
    (names.forM fun name => discard (registerNative name)) c =
      .ok () { c with
        natives := (names.filterMap SysFunction.lookup?).foldl (addNew SysFunction.name) c.natives } := by
  induction names generalizing c with
  | nil => rfl
  | cons name names ih =>
    have hfirst : discard (registerNative name) c = .ok () { c with
        natives := (SysFunction.lookup? name).toList.foldl (addNew SysFunction.name) c.natives } := by
      refine map_ok_iff.mpr ?_
      unfold registerNative
      cases hlookup : SysFunction.lookup? name with
      | none => exact ⟨none, rfl, rfl⟩
      | some f =>
        obtain ⟨index, himport⟩ := nativeImport_eq f c
        exact ⟨some index, map_ok_iff.mpr ⟨index, himport, rfl⟩, rfl⟩
    refine bind_ok_iff.mpr ⟨(), _, hfirst, ?_⟩
    rw [ih]
    cases hlookup : SysFunction.lookup? name with
    | none => rw [List.filterMap_cons_none hlookup]; rfl
    | some f => rw [List.filterMap_cons_some hlookup]; rfl

/-! ## What a program needs from the start -/

namespace Ssa.Program

/-- The functions of the system module that the program imports. -/
def natives (p : Program) : List SysFunction :=
  distinctBy SysFunction.name
    (SysFunction.print :: (p.definitions.flatMap Function.nativeCalls).filterMap SysFunction.lookup?)

/-- The strings in module data: the path of the system module and the literals. -/
def strings (p : Program) : List String :=
  (SysFunction.modulePath :: p.definitions.flatMap Function.stringLiterals).eraseDups

/-- The first global of each name. -/
def firstGlobals (p : Program) : List Global := distinctBy Global.name p.globals

/-- The cells that are placed before the first function is lowered. -/
def preparedCells (p : Program) : List Cell :=
  (.handle :: p.strings.map .string) ++ p.firstGlobals.map globalCell

end Ssa.Program

theorem foldl_strings (values : List String) :
    (values.map Cell.string).foldl (addNew id) [.handle, .string SysFunction.modulePath] =
      .handle :: ((SysFunction.modulePath :: values).eraseDups).map .string := by
  have hhandle : (((SysFunction.modulePath :: values).map Cell.string).filter fun y => !y == Cell.handle) =
      (SysFunction.modulePath :: values).map Cell.string := by
    rw [List.filter_eq_self]
    rintro cell hcell
    obtain ⟨value, -, rfl⟩ := List.mem_map.mp hcell
    rfl
  rw [foldl_addNew (by decide)]
  show (Cell.handle :: (SysFunction.modulePath :: values).map Cell.string).eraseDups = _
  rw [List.eraseDups_cons, hhandle, eraseDups_map fun _ _ _ _ h => Cell.string.inj h]

section Prepare

variable (p : Program) (c : Context)

theorem fills_strings (hcells : c.cells = [.handle, .string SysFunction.modulePath]) :
    Context.Fills ((p.definitions.flatMap Function.stringLiterals).forM fun value =>
      discard (Context.stringLiteral value)) c (.handle :: p.strings.map .string) := by
  have hroom : HasRoom c.cells := by
    rw [hcells]
    decide
  have hfills := Context.fills_forM (fun cells value => addNew id cells (.string value))
    (fun value c hroom => (Context.fills_intern (.string value) hroom).discard)
    (fun cells value => length_le_addNew id cells _) (p.definitions.flatMap Function.stringLiterals) hroom
  rw [← List.foldl_map (f := Cell.string) (g := addNew id), hcells, foldl_strings] at hfills
  exact hfills

theorem fills_globals (hcells : c.cells = .handle :: p.strings.map .string) (hroom : HasRoom c.cells) :
    Context.Fills (p.globals.forM declareGlobal) c p.preparedCells := by
  have hnone : (Cell.handle :: p.strings.map Cell.string).filterMap Cell.globalName? = [] := by
    rw [List.filterMap_cons_none rfl, List.filterMap_map]
    exact List.filterMap_eq_nil_iff.mpr fun _ _ => rfl
  have hfills := Context.fills_forM addGlobalCell fills_declareGlobal length_le_addGlobalCell p.globals hroom
  rw [hcells, foldl_addGlobalCell hnone] at hfills
  exact hfills

/-- The imports are there, whatever happens to module data. -/
theorem prepare_eq (log : Log) : prepare p (Context.initial p log) =
    ((p.definitions.flatMap Function.stringLiterals).forM (fun value =>
        discard (Context.stringLiteral value)) >>= fun _ => p.globals.forM declareGlobal)
      { Context.initial p log with natives := p.natives } := by
  have hnatives : ((p.definitions.flatMap Function.nativeCalls).filterMap SysFunction.lookup?).foldl
      (addNew SysFunction.name) (Context.initial p log).natives = p.natives := by
    have hnodup : ([SysFunction.print].map SysFunction.name).Nodup := by decide
    exact foldl_addNew hnodup _
  have hfirst := Context.forM_registerNative (p.definitions.flatMap Function.nativeCalls)
    (Context.initial p log)
  rw [hnatives] at hfirst
  exact bind_of_ok hfirst

/-- **The context that is prepared,** if there is room in module data. -/
theorem prepare_outcome (log : Log) :
    (HasRoom p.preparedCells ∧ ∃ log', prepare p (Context.initial p log) =
        .ok () ⟨p, p.preparedCells, p.natives, log'⟩) ∨
      (¬ HasRoom p.preparedCells ∧ ∃ fault c, prepare p (Context.initial p log) = .error fault c) := by
  have hfills := (fills_strings p { Context.initial p log with natives := p.natives } rfl).bind
    (fun _ log' hroom => fills_globals p _ rfl hroom)
    (show _ ≤ p.preparedCells.length by simp [Ssa.Program.preparedCells])
  rw [prepare_eq]
  rcases hfills with ⟨hroom, u, log', hok⟩ | ⟨hfull, fault, c, herror⟩
  · exact .inl ⟨hroom, log', hok⟩
  · exact .inr ⟨hfull, fault, c, herror⟩

end Prepare
end DisBackend
