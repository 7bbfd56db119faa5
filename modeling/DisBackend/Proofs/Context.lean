import DisBackend.Proofs.Outcome

/-!
# `Proofs.Context` — a context only grows

Every operation on the shared context either leaves it alone or puts something at the end of one of its
two tables. What was found once is therefore found again at the same place, however much is lowered in
between.

## Contents

* `Context.Grows` — one context is another with more at the end;
* `Context.place_ok_iff`, `Context.intern_ok` — where a cell lies;
* `Context.cell_of_global?`, `Context.Grows.global?` — where a global lies, then and later;
* `Context.nativeImport_ok`, `Context.grows_of_nativeImport` — the position of an import;
* `Context.item_of_cell` — the data item of a cell.
-/

namespace DisBackend

open Ssa (Function Program Ty)

/-- A function of the system module is found by its own name. -/
theorem SysFunction.lookup?_name {name : String} {f : SysFunction} (h : SysFunction.lookup? name = some f) :
    SysFunction.lookup? f.name = some f := by
  have hname : f.name = name := by simpa using List.find?_some h
  rw [hname]
  exact h

namespace Context

/-- `c'` is `c` with perhaps more cells and more imports at the end, and the new imports are functions of
the system module. -/
structure Grows (c c' : Context) : Prop where
  program : c'.program = c.program
  cells : c.cells <+: c'.cells
  natives : c.natives <+: c'.natives
  imported : ∀ g ∈ c'.natives, g ∈ c.natives ∨ SysFunction.lookup? g.name = some g

theorem Grows.refl (c : Context) : c.Grows c :=
  ⟨rfl, List.prefix_rfl, List.prefix_rfl, fun _ hg => .inl hg⟩

theorem Grows.trans {c₁ c₂ c₃ : Context} (h : c₁.Grows c₂) (h' : c₂.Grows c₃) : c₁.Grows c₃ where
  program := h'.program.trans h.program
  cells := h.cells.trans h'.cells
  natives := h.natives.trans h'.natives
  imported g hg := by
    rcases h'.imported g hg with hold | hnew
    · exact h.imported g hold
    · exact .inr hnew

/-- A cell keeps its number. -/
theorem Grows.cell {c c' : Context} (h : c.Grows c') {k : Nat} {cell : Cell}
    (hk : c.cells[k]? = some cell) : c'.cells[k]? = some cell :=
  getElem?_of_prefix h.cells hk

/-- The log is no part of what grows. -/
theorem Grows.of_log {c : Context} (log : Log) : c.Grows { c with log } :=
  ⟨rfl, List.prefix_rfl, List.prefix_rfl, fun _ hg => .inl hg⟩

/-! ## Cells -/

theorem nextOffset_moduleData (c : Context) :
    c.moduleData.nextOffset = wordOffset 0 c.cells.length := by
  simp [moduleData, ModuleData.nextOffset]

/-- Every cell takes one word. -/
theorem size_moduleData {c : Context} (h : c.cells ≠ []) :
    c.moduleData.size = wordBytes * c.cells.length := by
  have hpos := List.length_pos_of_ne_nil h
  rw [ModuleData.size, nextOffset_moduleData]
  unfold wordOffset wordBytes
  omega

/-- A cell is placed if there is room for one more. -/
theorem place_eq (cell : Cell) (c : Context) : place cell c =
    if wordOffset 0 c.cells.length ≤ operandMax - wordBytes then
      .ok (wordOffset 0 c.cells.length) { c with
        cells := c.cells ++ [cell],
        log := c.log.push (placedEvent (wordOffset 0 c.cells.length) cell) }
    else .error (.moduleDataFull cell.tag (wordOffset 0 c.cells.length)) c := by
  unfold place reserveWord ModuleData.allocate
  rw [nextOffset_moduleData]
  by_cases hroom : wordOffset 0 c.cells.length ≤ operandMax - wordBytes
  · simp only [if_pos hroom]
    rfl
  · simp only [if_neg hroom]
    rfl

theorem place_ok_iff {cell : Cell} {c c' : Context} {offset : Int} :
    place cell c = .ok offset c' ↔
      wordOffset 0 c.cells.length ≤ operandMax - wordBytes ∧ offset = wordOffset 0 c.cells.length ∧
      c' = { c with cells := c.cells ++ [cell], log := c.log.push (placedEvent offset cell) } := by
  rw [place_eq]
  by_cases hroom : wordOffset 0 c.cells.length ≤ operandMax - wordBytes
  · simp only [if_pos hroom, EStateM.Result.ok.injEq]
    constructor
    · rintro ⟨rfl, rfl⟩; exact ⟨hroom, rfl, rfl⟩
    · rintro ⟨-, rfl, rfl⟩; exact ⟨rfl, rfl⟩
  · simp only [if_neg hroom, reduceCtorEq, false_iff]
    rintro ⟨hroom', -⟩
    exact hroom hroom'

theorem grows_of_place {cell : Cell} {c c' : Context} {offset : Int}
    (h : place cell c = .ok offset c') : c.Grows c' := by
  obtain ⟨-, rfl, rfl⟩ := place_ok_iff.mp h
  exact ⟨rfl, List.prefix_append _ _, List.prefix_rfl, fun _ hg => .inl hg⟩

/-- **An interned cell has a number, and its offset is that of the number.** -/
theorem intern_ok {cell : Cell} {c c' : Context} {offset : Int}
    (h : intern cell c = .ok offset c') :
    ∃ k, c'.cells[k]? = some cell ∧ offset = wordOffset 0 k := by
  unfold intern at h
  cases hfound : c.offsetOf? cell with
  | some o =>
    rw [hfound] at h
    cases h
    obtain ⟨k, hk, rfl⟩ := Option.map_eq_some_iff.mp hfound
    obtain ⟨hlt, heq, -⟩ := List.findIdx?_eq_some_iff_getElem.mp hk
    refine ⟨k, ?_, rfl⟩
    rw [List.getElem?_eq_getElem hlt]
    exact congrArg some (by simpa using heq)
  | none =>
    rw [hfound] at h
    obtain ⟨-, rfl, rfl⟩ := place_ok_iff.mp h
    exact ⟨c.cells.length, by simp, rfl⟩

theorem grows_of_intern {cell : Cell} {c c' : Context} {offset : Int}
    (h : intern cell c = .ok offset c') : c.Grows c' := by
  unfold intern at h
  cases hfound : c.offsetOf? cell with
  | some o => rw [hfound] at h; cases h; exact Grows.refl c
  | none => rw [hfound] at h; exact grows_of_place h

/-! ## Globals -/

theorem findGlobal?_append {name : String} {index : Nat} {cells rest : List Cell} {slot : GlobalSlot}
    (h : findGlobal? name index cells = some slot) :
    findGlobal? name index (cells ++ rest) = some slot := by
  induction cells generalizing index with
  | nil => cases h
  | cons cell cells ih =>
    cases cell with
    | global n ty =>
      simp only [findGlobal?, List.cons_append] at h ⊢
      split
      · rename_i hn; rw [if_pos hn] at h; exact h
      · rename_i hn; rw [if_neg hn] at h; exact ih h
    | handle => exact ih h
    | string value => exact ih h
    | long value => exact ih h
    | real value => exact ih h

theorem cell_of_findGlobal? {name : String} {index : Nat} {cells : List Cell} {slot : GlobalSlot}
    (h : findGlobal? name index cells = some slot) :
    ∃ k, cells[k]? = some (.global name slot.ty) ∧ slot.offset = wordOffset 0 (index + k) := by
  induction cells generalizing index with
  | nil => cases h
  | cons cell cells ih =>
    have hlater (h' : findGlobal? name (index + 1) cells = some slot) :
        ∃ k, (cell :: cells)[k]? = some (.global name slot.ty) ∧
          slot.offset = wordOffset 0 (index + k) := by
      obtain ⟨k, hk, ho⟩ := ih h'
      exact ⟨k + 1, hk, by rw [ho]; congr 1; omega⟩
    cases cell with
    | global n ty =>
      simp only [findGlobal?] at h
      split at h
      · rename_i hn
        cases h
        exact ⟨0, by rw [hn]; rfl, rfl⟩
      · exact hlater h
    | handle => exact hlater h
    | string value => exact hlater h
    | long value => exact hlater h
    | real value => exact hlater h

/-- **A global lies in a cell of its name and type.** -/
theorem cell_of_global? {c : Context} {name : String} {slot : GlobalSlot}
    (h : c.global? name = some slot) :
    ∃ k, c.cells[k]? = some (.global name slot.ty) ∧ slot.offset = wordOffset 0 k := by
  obtain ⟨k, hk, ho⟩ := cell_of_findGlobal? h
  exact ⟨k, hk, by rw [ho, Nat.zero_add]⟩

/-- A global stays where it is. -/
theorem Grows.global? {c c' : Context} (h : c.Grows c') {name : String} {slot : GlobalSlot}
    (hg : c.global? name = some slot) : c'.global? name = some slot := by
  obtain ⟨rest, hrest⟩ := h.cells
  unfold Context.global?
  rw [← hrest]
  exact findGlobal?_append hg

/-! ## Imports -/

/-- The position of an import is that of a function with the right name. -/
theorem nativeImport_ok {f : SysFunction} {c c' : Context} {index : Nat}
    (h : nativeImport f c = .ok index c') : ∃ g, c'.natives[index]? = some g ∧ g.name = f.name := by
  unfold nativeImport at h
  cases hfound : c.natives.findIdx? (·.name == f.name) with
  | some k =>
    rw [hfound] at h
    cases h
    obtain ⟨hlt, heq, -⟩ := List.findIdx?_eq_some_iff_getElem.mp hfound
    exact ⟨_, List.getElem?_eq_getElem hlt, by simpa using heq⟩
  | none =>
    rw [hfound] at h
    cases h
    exact ⟨f, by simp, rfl⟩

theorem grows_of_nativeImport {name : String} {f : SysFunction} {c c' : Context} {index : Nat}
    (hf : SysFunction.lookup? name = some f) (h : nativeImport f c = .ok index c') : c.Grows c' := by
  unfold nativeImport at h
  cases hfound : c.natives.findIdx? (·.name == f.name) with
  | some k =>
    rw [hfound] at h
    cases h
    exact Grows.refl c
  | none =>
    rw [hfound] at h
    cases h
    refine ⟨rfl, List.prefix_rfl, List.prefix_append _ _, fun g hg => ?_⟩
    rcases List.mem_append.mp hg with hold | hnew
    · exact .inl hold
    · obtain rfl := List.mem_singleton.mp hnew
      exact .inr (SysFunction.lookup?_name hf)

/-! ## Data items -/

/-- The data item of a cell is among those of the context. -/
theorem item_of_cell {c : Context} {k : Nat} {cell : Cell} {item : DataItem}
    (hk : c.cells[k]? = some cell) (hitem : cell.item? (wordOffset 0 k) = some item) :
    item ∈ c.items := by
  unfold items
  refine List.mem_filterMap.mpr ⟨(cell, k), ?_, hitem⟩
  rw [List.mem_iff_getElem?]
  exact ⟨k, by simp [List.getElem?_zipIdx, hk]⟩

/-! ## The segment -/

/-- The context after the segment was put together. -/
def afterFinish (c : Context) : Context :=
  { c with log := c.log.push (.dataFinished c.moduleData.size c.items.length c.natives.length) }

theorem finish_of_described {c : Context} {d : TypeDescriptor} (h : c.moduleData.descriptor 0 = .ok d) :
    finish c = .ok ⟨d, c.moduleData.size, c.items, c.natives.map SysFunction.toImport, sysOffset,
      sysPathOffset⟩ c.afterFinish := by
  refine bind_ok_iff.mpr ⟨c, c, rfl, bind_ok_iff.mpr ⟨(), c.afterFinish, rfl, ?_⟩⟩
  simp only [h]
  rfl

theorem finish_of_undescribed {c : Context} {fault : Fault} (h : c.moduleData.descriptor 0 = .error fault) :
    finish c = .error fault c.afterFinish := by
  have hget : (get : ContextM Context) c = .ok c c := rfl
  have hreport : report (.dataFinished c.moduleData.size c.items.length c.natives.length) c =
      .ok () c.afterFinish := rfl
  unfold finish
  rw [bind_of_ok hget, bind_of_ok hreport]
  simp only [h]
  rfl

end Context
end DisBackend
