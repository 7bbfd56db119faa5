import DisBackend.Proofs.Data.Sharing

/-!
# `Proofs.Data.Tables` — the shared context in tables

Instead of one list of cells, the shared context can be kept in tables: one for each kind of key, the offset
of the next word and the offsets of the pointers, and what the loader fills in the order in which it was
placed. Then every operation has several tables to change, and a segment is right only if they are changed
together. They are: the tables are at all times those of a list of cells, so the operations on tables answer
as those on cells do, and the segment that is put together from the tables is that of the cells.

## Contents

* `Tables`, `Tables.create` — the tables, and how they start;
* `ConstantTable`, `Tables.constant`, `Tables.addGlobal`, `Tables.nativeImport` — the operations;
* `Tables.finish` — the segment;
* `Context.tables` — the tables of a list of cells;
* `Simulates`, `simulates_perform`, `Simulates.mapM`, `simulates_finish` — one operation, any number of them,
  and the end;
* `Tables.perform_served` — the replies and the finished segment.
-/

namespace DisBackend

open Ssa (Program Ty)

/-! ## Tables -/

/-- What the functions of a module share, in tables. -/
structure Tables where
  program : Program
  /-- The offset of the next word of module data. -/
  nextOffset : Int
  /-- The offsets of the words that the garbage collector follows. -/
  pointers : List Int
  sysOffset : Int
  sysPathOffset : Int
  globals : List (String × GlobalSlot)
  strings : List (String × Int)
  longs : List (Int64 × Int)
  /-- The reals, by their bits. -/
  reals : List (UInt64 × Int)
  natives : List SysFunction
  /-- What the loader fills, in the order in which it was placed. -/
  items : List DataItem
  log : Log

/-- A computation on tables. -/
abbrev TablesM := EStateM Fault Tables

/-- A table of constants: where it is kept, how the words of its keys are placed, and how a new word is
entered in the table and among the items. -/
structure ConstantTable (κ : Type) where
  entries : Tables → List (κ × Int)
  tag : κ → String
  pointer : Bool
  enter : κ → Int → Tables → Tables

/-- The table of the strings. -/
def stringTable : ConstantTable String where
  entries := Tables.strings
  tag value := value
  pointer := true
  enter value offset t :=
    { t with strings := t.strings ++ [(value, offset)], items := t.items ++ [.string offset value] }

/-- The table of the integers. -/
def longTable : ConstantTable Int64 where
  entries := Tables.longs
  tag value := toString value.toInt
  pointer := false
  enter value offset t :=
    { t with longs := t.longs ++ [(value, offset)], items := t.items ++ [.longs offset [value]] }

/-- The table of the reals. -/
def realTable : ConstantTable UInt64 where
  entries := Tables.reals
  tag bits := Double.text Double.dataLayout ⟨bits⟩
  pointer := false
  enter bits offset t :=
    { t with reals := t.reals ++ [(bits, offset)], items := t.items ++ [.reals offset [⟨bits⟩]] }

namespace Tables

/-- Tables with nothing in them. -/
def empty (program : Program) (log : Log) : Tables where
  program
  nextOffset := 0
  pointers := []
  sysOffset := 0
  sysPathOffset := 0
  globals := []
  strings := []
  longs := []
  reals := []
  natives := []
  items := []
  log

/-- Hands out the next word of module data. -/
def allocate (tag : String) (pointer : Bool) : TablesM Int := fun t =>
  if t.nextOffset ≤ operandMax - wordBytes then
    .ok t.nextOffset { t with
      nextOffset := t.nextOffset + wordBytes
      pointers := if pointer then t.pointers ++ [t.nextOffset] else t.pointers
      log := t.log.push (.dataPlaced t.nextOffset tag pointer) }
  else .error (.moduleDataFull tag t.nextOffset) t

/-- Hands out the next word of module data, and enters it in the tables. -/
def place (tag : String) (pointer : Bool) (enter : Int → Tables → Tables) : TablesM Int := do
  let offset ← allocate tag pointer
  modify (enter offset)
  return offset

/-- The offset of a constant. If it is new, it is given a word, which goes into its table and to the
loader. -/
def constant {κ : Type} [BEq κ] (table : ConstantTable κ) (key : κ) : TablesM Int := fun t =>
  match (table.entries t).lookup key with
  | some offset => .ok offset t
  | none => place (table.tag key) table.pointer (table.enter key) t

/-- Enters a global in its table. The loader leaves its word empty. -/
def enterGlobal (name : String) (ty : Ty) (offset : Int) (t : Tables) : Tables :=
  { t with globals := t.globals ++ [(name, ⟨offset, ty⟩)] }

/-- Where a global lies. If its name is new, it is given a word. -/
def addGlobal (name : String) (ty : Ty) : TablesM GlobalSlot := fun t =>
  match t.globals.lookup name with
  | some slot => .ok slot t
  | none => ((fun offset => ⟨offset, ty⟩) <$> place name ty.isPointer (enterGlobal name ty)) t

/-- The position of a system function in the import table. -/
def nativeImport (f : SysFunction) : TablesM Nat := fun t =>
  match t.natives.findIdx? (·.name == f.name) with
  | some index => .ok index t
  | none => .ok t.natives.length { t with natives := t.natives ++ [f] }

/-- The position of the system function with a given name, if there is one. -/
def registerNative (name : String) : TablesM (Option Nat) :=
  match SysFunction.lookup? name with
  | some f => some <$> nativeImport f
  | none => pure none

/-- Places the handle and the path of the system module, and imports `print`. -/
def create : TablesM Unit := do
  let handle ← allocate "$Sys handle" true
  modify fun t => { t with sysOffset := handle }
  discard (registerNative "print")
  let path ← constant stringTable SysFunction.modulePath
  modify fun t => { t with sysPathOffset := path }

/-- The size of module data, at least one word. -/
def size (t : Tables) : Int := max t.nextOffset wordBytes

/-- The descriptor of module data. -/
def descriptor (t : Tables) : Except Fault TypeDescriptor := do
  (← TypeDescriptor.blank 0 t.size).setPointers t.pointers

/-- Puts the data segment and the import table together. The items are sorted by their offsets. -/
def finish : TablesM DataSegment := fun t =>
  let items := t.items.mergeSort fun a b => a.offset ≤ b.offset
  let t := { t with items, log := t.log.push (.dataFinished t.size items.length t.natives.length) }
  match t.descriptor with
  | .ok descriptor =>
    .ok { descriptor, size := t.size, items, imports := t.natives.map SysFunction.toImport,
          sysOffset := t.sysOffset, sysPathOffset := t.sysPathOffset } t
  | .error fault => .error fault t

/-- Runs an operation. -/
def perform : Request → TablesM Reply
  | .registerNative name => (fun index => (index.map Reply.index).getD .unknown) <$> registerNative name
  | .nativeImport f => Reply.index <$> nativeImport f
  | .stringLiteral value => Reply.offset <$> constant stringTable value
  | .longConstant value => Reply.offset <$> constant longTable value
  | .realConstant value => Reply.offset <$> constant realTable value.bits
  | .addGlobal name ty => Reply.slot <$> addGlobal name ty

end Tables

/-! ## The tables of a list of cells -/

/-- What `g` makes of the cells and their offsets, in the order of the cells, the first of which has the
number `start`. -/
def collectFrom {β : Type} (g : Int → Cell → Option β) (start : Nat) (cells : List Cell) : List β :=
  (cells.zipIdx start).filterMap fun p => g (wordOffset 0 p.2) p.1

namespace Cell

/-- The offset of a cell that the garbage collector follows. -/
def pointer? (offset : Int) (cell : Cell) : Option Int := if cell.isPointer then some offset else none

/-- The string that the cell is for. -/
def string? : Cell → Option String
  | .string value => some value
  | _ => none

/-- The integer that the cell is for. -/
def long? : Cell → Option Int64
  | .long value => some value
  | _ => none

/-- The bits of the real that the cell is for. -/
def realBits? : Cell → Option UInt64
  | .real value => some value.bits
  | _ => none

/-- The entry of a constant. -/
def entry? {κ : Type} (key? : Cell → Option κ) (offset : Int) (cell : Cell) : Option (κ × Int) :=
  (key? cell).map fun key => (key, offset)

/-- The entry of a global. -/
def globalEntry? (offset : Int) : Cell → Option (String × GlobalSlot)
  | .global name ty => some (name, ⟨offset, ty⟩)
  | _ => none

end Cell

/-- The tables of a context. -/
def Context.tables (c : Context) : Tables where
  program := c.program
  nextOffset := wordOffset 0 c.cells.length
  pointers := collectFrom Cell.pointer? 0 c.cells
  sysOffset := DisBackend.sysOffset
  sysPathOffset := DisBackend.sysPathOffset
  globals := collectFrom Cell.globalEntry? 0 c.cells
  strings := collectFrom (Cell.entry? Cell.string?) 0 c.cells
  longs := collectFrom (Cell.entry? Cell.long?) 0 c.cells
  reals := collectFrom (Cell.entry? Cell.realBits?) 0 c.cells
  natives := c.natives
  items := collectFrom Cell.item? 0 c.cells
  log := c.log

section Collect

variable {β κ : Type} (g : Int → Cell → Option β) (start : Nat) (cells : List Cell)

theorem collectFrom_cons (cell : Cell) : collectFrom g start (cell :: cells) =
    (g (wordOffset 0 start) cell).toList ++ collectFrom g (start + 1) cells := by
  unfold collectFrom
  rw [List.zipIdx_cons, List.filterMap_cons]
  cases g (wordOffset 0 start) cell <;> rfl

/-- One more cell. -/
theorem collectFrom_concat (cell : Cell) : collectFrom g 0 (cells ++ [cell]) =
    collectFrom g 0 cells ++ (g (wordOffset 0 cells.length) cell).toList := by
  have hlast : collectFrom g cells.length [cell] = (g (wordOffset 0 cells.length) cell).toList := by
    rw [collectFrom_cons]
    exact List.append_nil _
  rw [← hlast]
  unfold collectFrom
  rw [List.zipIdx_append, List.filterMap_append, Nat.zero_add]

/-- The pointers of the tables are those of the cells. -/
theorem collectFrom_pointer? :
    collectFrom Cell.pointer? 0 cells = pointerOffsetsFrom 0 (cells.map Cell.isPointer) := by
  unfold collectFrom pointerOffsetsFrom
  rw [List.zipIdx_map, List.filter_map, List.map_map, ← List.filterMap_eq_map, List.filterMap_filter]
  rfl

/-- A constant is in its table where it is among the cells. -/
theorem lookup_entries [DecidableEq κ] {key? : Cell → Option κ} {ofKey : κ → Cell}
    (hkey : ∀ cell key, key? cell = some key ↔ cell = ofKey key) (key : κ) :
    (collectFrom (Cell.entry? key?) start cells).lookup key =
      (cells.idxOf? (ofKey key)).map fun k => wordOffset 0 (start + k) := by
  induction cells generalizing start with
  | nil => rfl
  | cons cell cells ih =>
    have hlater : (collectFrom (Cell.entry? key?) (start + 1) cells).lookup key =
        ((cells.idxOf? (ofKey key)).map (· + 1)).map fun k => wordOffset 0 (start + k) := by
      rw [ih, Option.map_map]
      refine congrFun (congrArg Option.map (funext fun k => ?_)) _
      show wordOffset 0 (start + 1 + k) = wordOffset 0 (start + (k + 1))
      rw [Nat.add_assoc, Nat.add_comm 1 k]
    rw [collectFrom_cons, List.idxOf?_cons]
    by_cases hcell : cell = ofKey key
    · rw [Cell.entry?, (hkey cell key).mpr hcell, beq_iff_eq.mpr hcell]
      simp
    · rw [beq_eq_false_iff_ne.mpr hcell, if_neg Bool.false_ne_true, ← hlater]
      -- an entry of another key is passed over
      cases hfound : key? cell with
      | none => simp [Cell.entry?, hfound]
      | some key' =>
        have hother : (key == key') = false := by
          refine beq_eq_false_iff_ne.mpr ?_
          rintro rfl
          exact hcell ((hkey cell _).mp hfound)
        simp [Cell.entry?, hfound, List.lookup_cons, hother]

/-- A global is in its table where it is among the cells. -/
theorem lookup_globals (name : String) :
    (collectFrom Cell.globalEntry? start cells).lookup name = Context.findGlobal? name start cells := by
  induction cells generalizing start with
  | nil => rfl
  | cons cell cells ih =>
    rw [collectFrom_cons]
    cases cell with
    | global n ty =>
      by_cases hname : n = name
      · simp [Cell.globalEntry?, Context.findGlobal?, hname]
      · have hother : (name == n) = false := beq_eq_false_iff_ne.mpr (Ne.symm hname)
        simp [Cell.globalEntry?, Context.findGlobal?, List.lookup_cons, hname, hother, ih]
    | handle | string | long | real => exact ih (start + 1)

end Collect

/-! ## Simulation -/

/-- The result of a computation, with the state seen through `g`. -/
def mapState {ε σ τ α : Type} (g : σ → τ) : EStateM.Result ε σ α → EStateM.Result ε τ α
  | .ok a s => .ok a (g s)
  | .error e s => .error e (g s)

/-- What `m` does to the tables of a context is what `n` does to the context. -/
def Simulates {α : Type} (m : TablesM α) (n : ContextM α) : Prop :=
  ∀ c : Context, m c.tables = mapState Context.tables (n c)

namespace Simulates

variable {α β : Type} {m : TablesM α} {n : ContextM α}

theorem pure (a : α) : Simulates (pure a) (pure a) := fun _ => rfl

theorem map (h : Simulates m n) (f : α → β) : Simulates (f <$> m) (f <$> n) := by
  intro c
  show EStateM.map f m c.tables = mapState _ (EStateM.map f n c)
  rw [EStateM.map, EStateM.map, h c]
  cases n c <;> rfl

theorem bind (h : Simulates m n) {k : α → TablesM β} {l : α → ContextM β}
    (hk : ∀ a, Simulates (k a) (l a)) : Simulates (m >>= k) (n >>= l) := by
  intro c
  show EStateM.bind m k c.tables = mapState _ (EStateM.bind n l c)
  rw [EStateM.bind, EStateM.bind, h c]
  cases n c with
  | ok a c' => exact hk a c'
  | error fault c' => rfl

/-- What holds of each step holds of a run. -/
theorem mapM {f : β → TablesM α} {g : β → ContextM α} (h : ∀ b, Simulates (f b) (g b)) (bs : List β) :
    Simulates (bs.mapM f) (bs.mapM g) := by
  induction bs with
  | nil =>
    rw [List.mapM_nil, List.mapM_nil]
    exact .pure []
  | cons b bs ih =>
    rw [List.mapM_cons, List.mapM_cons]
    exact (h b).bind fun a => ih.bind fun as => .pure (a :: as)

end Simulates

/-! ## Operations -/

/-- The tables of a context with one more cell. -/
theorem Context.tables_concat (c : Context) (cell : Cell) (log : Log) {offset : Int}
    (hoffset : offset = wordOffset 0 c.cells.length) :
    Context.tables { c with cells := c.cells ++ [cell], log } = { c.tables with
      nextOffset := offset + wordBytes
      pointers := c.tables.pointers ++ (cell.pointer? offset).toList
      globals := c.tables.globals ++ (cell.globalEntry? offset).toList
      strings := c.tables.strings ++ (cell.entry? Cell.string? offset).toList
      longs := c.tables.longs ++ (cell.entry? Cell.long? offset).toList
      reals := c.tables.reals ++ (cell.entry? Cell.realBits? offset).toList
      items := c.tables.items ++ (cell.item? offset).toList
      log } := by
  have hnext : wordOffset 0 (c.cells ++ [cell]).length = offset + wordBytes := by
    rw [hoffset, List.length_append, List.length_singleton]
    unfold wordOffset wordBytes
    omega
  simp only [tables, hnext, collectFrom_concat, ← hoffset]

/-- `enter` changes the tables as the cell asks for. -/
def Enters (cell : Cell) (enter : Int → Tables → Tables) : Prop :=
  ∀ offset t, enter offset t = { t with
    globals := t.globals ++ (cell.globalEntry? offset).toList
    strings := t.strings ++ (cell.entry? Cell.string? offset).toList
    longs := t.longs ++ (cell.entry? Cell.long? offset).toList
    reals := t.reals ++ (cell.entry? Cell.realBits? offset).toList
    items := t.items ++ (cell.item? offset).toList }

theorem Tables.place_eq (tag : String) (pointer : Bool) (enter : Int → Tables → Tables) (t : Tables) :
    place tag pointer enter t =
      if t.nextOffset ≤ operandMax - wordBytes then
        .ok t.nextOffset (enter t.nextOffset { t with
          nextOffset := t.nextOffset + wordBytes
          pointers := if pointer then t.pointers ++ [t.nextOffset] else t.pointers
          log := t.log.push (.dataPlaced t.nextOffset tag pointer) })
      else .error (.moduleDataFull tag t.nextOffset) t := by
  unfold place
  by_cases hroom : t.nextOffset ≤ operandMax - wordBytes
  · rw [if_pos hroom]
    exact bind_of_ok (if_pos hroom)
  · rw [if_neg hroom]
    exact bind_of_error (if_neg hroom)

/-- **Placing a cell.** -/
theorem simulates_place {cell : Cell} {enter : Int → Tables → Tables} (h : Enters cell enter) :
    Simulates (Tables.place cell.tag cell.isPointer enter) (Context.place cell) := by
  intro c
  have hnext : c.tables.nextOffset = wordOffset 0 c.cells.length := rfl
  rw [Tables.place_eq, Context.place_eq, hnext]
  by_cases hroom : wordOffset 0 c.cells.length ≤ operandMax - wordBytes
  · rw [if_pos hroom, if_pos hroom, h, mapState, Context.tables_concat c cell _ rfl]
    have hlog : c.tables.log = c.log := rfl
    cases hpointer : cell.isPointer <;> simp [Cell.pointer?, Context.placedEvent, hpointer, hlog]
  · rw [if_neg hroom, if_neg hroom, mapState]

/-- The constants of a table are the cells of one kind. -/
structure ConstantTable.Holds {κ : Type} (table : ConstantTable κ) (key? : Cell → Option κ)
    (ofKey : κ → Cell) : Prop where
  key : ∀ cell key, key? cell = some key ↔ cell = ofKey key
  entries : ∀ c : Context, table.entries c.tables = collectFrom (Cell.entry? key?) 0 c.cells
  tag : ∀ key, (ofKey key).tag = table.tag key
  pointer : ∀ key, (ofKey key).isPointer = table.pointer
  enter : ∀ key, Enters (ofKey key) (table.enter key)

theorem stringTable_holds : stringTable.Holds Cell.string? Cell.string where
  key cell key := by cases cell <;> simp [Cell.string?]
  entries _ := rfl
  tag _ := rfl
  pointer _ := rfl
  enter _ _ t := by simp [stringTable, Cell.globalEntry?, Cell.entry?, Cell.string?, Cell.long?,
    Cell.realBits?, Cell.item?]

theorem longTable_holds : longTable.Holds Cell.long? Cell.long where
  key cell key := by cases cell <;> simp [Cell.long?]
  entries _ := rfl
  tag _ := rfl
  pointer _ := rfl
  enter _ _ t := by simp [longTable, Cell.globalEntry?, Cell.entry?, Cell.string?, Cell.long?,
    Cell.realBits?, Cell.item?]

theorem realTable_holds : realTable.Holds Cell.realBits? fun bits => Cell.real ⟨bits⟩ where
  key cell key := by
    cases cell with
    | real value =>
      constructor
      · intro h
        cases h
        rfl
      · intro h
        cases h
        rfl
    | _ => simp [Cell.realBits?]
  entries _ := rfl
  tag _ := rfl
  pointer _ := rfl
  enter _ _ t := by simp [realTable, Cell.globalEntry?, Cell.entry?, Cell.string?, Cell.long?,
    Cell.realBits?, Cell.item?]

theorem enterGlobal_enters (name : String) (ty : Ty) :
    Enters (.global name ty) (Tables.enterGlobal name ty) := by
  intro offset t
  simp [Tables.enterGlobal, Cell.globalEntry?, Cell.entry?, Cell.string?, Cell.long?, Cell.realBits?,
    Cell.item?]

/-- **A constant.** -/
theorem simulates_constant {κ : Type} [DecidableEq κ] {table : ConstantTable κ} {key? : Cell → Option κ}
    {ofKey : κ → Cell} (h : table.Holds key? ofKey) (key : κ) :
    Simulates (Tables.constant table key) (Context.intern (ofKey key)) := by
  intro c
  have hlookup : (table.entries c.tables).lookup key = c.offsetOf? (ofKey key) := by
    rw [h.entries, lookup_entries 0 c.cells h.key]
    simp only [Nat.zero_add]
    rfl
  unfold Tables.constant Context.intern
  rw [hlookup]
  cases c.offsetOf? (ofKey key) with
  | some offset => rfl
  | none =>
    show Tables.place _ _ _ c.tables = mapState _ (Context.place _ c)
    rw [← h.tag, ← h.pointer key]
    exact simulates_place (h.enter key) c

theorem Context.addGlobal_of_new {c : Context} {name : String} (h : c.global? name = none) (ty : Ty) :
    addGlobal name ty c = ((fun offset => GlobalSlot.mk offset ty) <$> place (.global name ty)) c := by
  show _ = EStateM.map _ _ c
  unfold addGlobal EStateM.map
  rw [h]
  cases place (.global name ty) c <;> rfl

/-- **A global.** -/
theorem simulates_addGlobal (name : String) (ty : Ty) :
    Simulates (Tables.addGlobal name ty) (Context.addGlobal name ty) := by
  intro c
  have hlookup : c.tables.globals.lookup name = c.global? name := lookup_globals 0 c.cells name
  unfold Tables.addGlobal
  rw [hlookup]
  cases hfound : c.global? name with
  | some slot =>
    unfold Context.addGlobal
    rw [hfound]
    rfl
  | none =>
    rw [Context.addGlobal_of_new hfound]
    exact (simulates_place (enterGlobal_enters name ty)).map (fun offset => GlobalSlot.mk offset ty) c

/-- **An import.** -/
theorem simulates_nativeImport (f : SysFunction) :
    Simulates (Tables.nativeImport f) (Context.nativeImport f) := by
  intro c
  have hnatives : c.tables.natives = c.natives := rfl
  unfold Tables.nativeImport Context.nativeImport
  rw [hnatives]
  cases c.natives.findIdx? (·.name == f.name) <;> rfl

theorem simulates_registerNative (name : String) :
    Simulates (Tables.registerNative name) (Context.registerNative name) := by
  unfold Tables.registerNative Context.registerNative
  cases SysFunction.lookup? name with
  | some f => exact (simulates_nativeImport f).map some
  | none => exact .pure none

/-- **One operation.** -/
theorem simulates_perform (r : Request) : Simulates (Tables.perform r) r.perform := by
  cases r with
  | registerNative name => exact (simulates_registerNative name).map _
  | nativeImport f => exact (simulates_nativeImport f).map _
  | stringLiteral value => exact (simulates_constant stringTable_holds value).map _
  | longConstant value => exact (simulates_constant longTable_holds value).map _
  | realConstant value => exact (simulates_constant realTable_holds value.bits).map _
  | addGlobal name ty => exact (simulates_addGlobal name ty).map _

/-- The tables start as those of a new context. -/
theorem create_empty (program : Program) (log : Log) :
    Tables.create (Tables.empty program log) = .ok () (Context.initial program log).tables := by
  rfl

/-- **The end.** The items were placed in the order of their offsets, so that sorting them changes nothing. -/
theorem simulates_finish : Simulates Tables.finish Context.finish := by
  intro c
  have hsorted : (c.tables.items.mergeSort fun a b => a.offset ≤ b.offset) = c.items := by
    refine List.mergeSort_of_pairwise ?_
    have hincreasing := List.pairwise_map.mp (itemsFrom_increasing 0 c.cells)
    exact hincreasing.imp fun h => decide_eq_true (Int.le_of_lt h)
  have hsize : c.tables.size = c.moduleData.size := by
    unfold Tables.size ModuleData.size
    rw [Context.nextOffset_moduleData]
    rfl
  have hdescriptor (items : List DataItem) (log : Log) :
      Tables.descriptor { c.tables with items, log } = c.moduleData.descriptor 0 := by
    show (TypeDescriptor.blank 0 c.tables.size >>= fun d =>
      d.setPointers (collectFrom Cell.pointer? 0 c.cells)) = _
    rw [hsize, collectFrom_pointer?]
    rfl
  unfold Tables.finish
  simp only [hsorted, hdescriptor]
  cases hd : c.moduleData.descriptor 0 with
  | ok d =>
    rw [Context.finish_of_described hd, hsize]
    show EStateM.Result.ok (DataSegment.mk d c.tables.size _ _ _ _) _ = _
    rw [hsize]
    rfl
  | error fault =>
    rw [Context.finish_of_undescribed hd, hsize]
    rfl

/-! ## The whole -/

/-- **Every key has one word and every function one import,** whatever is asked for in between, as long as
there is room in module data. The tables give what the cells give. -/
theorem Tables.perform_served (program : Program) (log : Log) (rs : List Request) :
    ∃ new, create (empty program log) = .ok () new ∧
      (wordBytes * (Request.keys rs).length ≤ operandMax →
        ∃ replies t data t', rs.mapM perform new = .ok replies t ∧ finish t = .ok data t' ∧
          Served rs replies data ∧
          ∃ c c', rs.mapM Request.perform (Context.initial program log) = .ok replies c ∧
            Context.finish c = .ok data c') ∧
      (operandMax < wordBytes * (Request.keys rs).length →
        ∃ fault t c, rs.mapM perform new = .error fault t ∧
          rs.mapM Request.perform (Context.initial program log) = .error fault c) := by
  have hrun := Simulates.mapM simulates_perform rs (Context.initial program log)
  obtain ⟨hserved, hfull⟩ := Context.performAll_served program log rs
  refine ⟨_, create_empty program log, fun hroom => ?_, fun hlarge => ?_⟩
  · obtain ⟨replies, c, data, c', hreplies, hfinish, hdata⟩ := hserved hroom
    rw [hreplies] at hrun
    refine ⟨replies, c.tables, data, c'.tables, hrun, ?_, hdata, c, c', hreplies, hfinish⟩
    rw [simulates_finish c, hfinish]
    rfl
  · obtain ⟨fault, c, herror⟩ := hfull hlarge
    rw [herror] at hrun
    exact ⟨fault, c.tables, c, hrun, herror⟩

/-- Asks for all kinds of things, some of them twice, and for both zeros. -/
def hoard : List Request :=
  [.stringLiteral "b", .realConstant ⟨0⟩, .addGlobal "b" .string, .registerNative "sprint", .longConstant 0,
    .realConstant ⟨0x8000000000000000⟩, .stringLiteral "$Sys", .addGlobal "b" .int, .registerNative "hoard",
    .realConstant ⟨0⟩, .addGlobal "c" .real, .nativeImport .print, .stringLiteral "b",
    .registerNative "sprint"]

/-- What `hoard` is told. -/
def hoardReplies : List Reply :=
  [.offset 16, .offset 24, .slot ⟨32, .string⟩, .index 1, .offset 40, .offset 48, .offset 8,
    .slot ⟨32, .string⟩, .unknown, .offset 24, .slot ⟨56, .real⟩, .index 0, .offset 16, .index 1]

/-- What `hoard` gets. -/
def hoardData : DataSegment where
  descriptor := ⟨0, 64, [0xe8]⟩
  size := 64
  items := [.string 8 "$Sys", .string 16 "b", .reals 24 [⟨0⟩], .longs 40 [0],
    .reals 48 [⟨0x8000000000000000⟩]]
  imports := [⟨0xac849033, "print"⟩, ⟨0x4c0624b6, "sprint"⟩]
  sysOffset := 0
  sysPathOffset := 8

/-- The second declaration of a global changes nothing, and the two zeros have a word each. -/
theorem Tables.perform_served_hoard : ∃ new t t',
    create (empty { sourcePath := "hoard" } #[]) = .ok () new ∧
    hoard.mapM perform new = .ok hoardReplies t ∧ finish t = .ok hoardData t' ∧
    Served hoard hoardReplies hoardData := by
  have hroom : wordBytes * (Request.keys hoard).length ≤ operandMax := by decide
  obtain ⟨new, hnew, hserved, -⟩ := perform_served { sourcePath := "hoard" } #[] hoard
  obtain ⟨replies, t, data, t', hrun, hfinish, hdata, c, c', hrun', hfinish'⟩ := hserved hroom
  -- what the cells give is computed
  have hcells : ∃ c c', hoard.mapM Request.perform (Context.initial { sourcePath := "hoard" } #[]) =
      .ok hoardReplies c ∧ Context.finish c = .ok hoardData c' := ⟨_, _, rfl, rfl⟩
  obtain ⟨u, u', hu, hu'⟩ := hcells
  rw [hrun'] at hu
  cases hu
  rw [hfinish'] at hu'
  cases hu'
  exact ⟨new, t, t', hnew, hrun, hfinish, hdata⟩

end DisBackend
