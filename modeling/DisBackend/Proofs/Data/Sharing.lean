import DisBackend.Proofs.Data.Layout

/-!
# `Proofs.Data.Sharing` — one word for each key

The operations on the shared context may come in any order and as often as one likes. A string, a number or a
global is placed when it is asked for first, and is then found again where it is; a function of the system
module is imported when it is asked for first. Module data and the imports are therefore known from what was
asked for, and every answer that was given on the way holds of the finished segment.

## Contents

* `DataKey`, `Cell.key` — what a word is asked for by;
* `Request`, `Reply`, `Request.perform` — the operations on the context, as data;
* `Request.Answered`, `Request.perform_outcome` — one request;
* `Request.performAll_outcome` — any number of them;
* `Request.keys`, `Request.cells`, `Request.natives`, `Request.FirstDeclares` — what was asked for;
* `Context.finish_total` — the segment of a context that is not too large;
* `LiesAt`, `Finished.liesAt_iff` — where the words of the keys are;
* `Served`, `Context.performAll_served` — the replies and the finished segment.
-/

namespace DisBackend

open Ssa (Global Program Ty)

/-! ## Keys -/

/-- What a word of module data is asked for by. -/
inductive DataKey where
  | handle
  | string (value : String)
  | long (value : Int64)
  | real (value : Double)
  | global (name : String)
  deriving DecidableEq, Repr

/-- A global is asked for by its name; its type is that of the first declaration. -/
def Cell.key : Cell → DataKey
  | .handle => .handle
  | .string value => .string value
  | .long value => .long value
  | .real value => .real value
  | .global name _ => .global name

/-- The data item of a word at `offset`. -/
def DataKey.item? (offset : Int) : DataKey → Option DataItem
  | .handle | .global _ => none
  | .string value => some (.string offset value)
  | .long value => some (.longs offset [value])
  | .real value => some (.reals offset [value])

theorem Cell.item?_key (offset : Int) (cell : Cell) : cell.key.item? offset = cell.item? offset := by
  cases cell <;> rfl

theorem Cell.key_eq_global_iff {cell : Cell} {name : String} :
    cell.key = .global name ↔ ∃ ty, cell = .global name ty := by
  cases cell <;> simp [key]

/-- All but globals are their keys. -/
theorem Cell.key_mem_map_iff {cell : Cell} {cells : List Cell} (h : cell.globalName? = none) :
    cell.key ∈ cells.map key ↔ cell ∈ cells := by
  refine ⟨fun hkey => ?_, fun hmem => List.mem_map_of_mem hmem⟩
  obtain ⟨other, hother, heq⟩ := List.mem_map.mp hkey
  have hsame : other = cell := by
    cases cell <;> cases other <;> simp_all [key, globalName?]
  exact hsame ▸ hother

theorem addNew_key {cell : Cell} (h : cell.globalName? = none) (cells : List Cell) :
    addNew Cell.key cells cell = addNew id cells cell := by
  unfold addNew
  simp only [Cell.key_mem_map_iff h, List.map_id, id]

theorem addNew_key_global (cells : List Cell) (g : Global) :
    addNew Cell.key cells (globalCell g) = addGlobalCell cells g := by
  have hmem : (globalCell g).key ∈ cells.map Cell.key ↔ g.name ∈ cells.filterMap Cell.globalName? := by
    show DataKey.global g.name ∈ _ ↔ _
    rw [List.mem_map, List.mem_filterMap]
    refine exists_congr fun cell => and_congr_right fun _ => ?_
    cases cell <;> simp [Cell.key, Cell.globalName?]
  unfold addNew addGlobalCell
  simp only [hmem]

/-! ## Requests -/

/-- An operation on the shared context. -/
inductive Request where
  | registerNative (name : String)
  | nativeImport (f : SysFunction)
  | stringLiteral (value : String)
  | longConstant (value : Int64)
  | realConstant (value : Double)
  | addGlobal (name : String) (ty : Ty)
  deriving DecidableEq, Repr

/-- What an operation returns. -/
inductive Reply where
  | offset (offset : Int)
  | slot (slot : GlobalSlot)
  | index (index : Nat)
  | unknown
  deriving DecidableEq, Repr

/-- The offset that a reply gives. -/
def Reply.offset? : Reply → Option Int
  | .offset o => some o
  | .slot s => some s.offset
  | .index _ | .unknown => none

namespace Request

/-- Runs the operation. -/
def perform : Request → ContextM Reply
  | .registerNative name =>
    (fun index => (index.map Reply.index).getD .unknown) <$> Context.registerNative name
  | .nativeImport f => Reply.index <$> Context.nativeImport f
  | .stringLiteral value => Reply.offset <$> Context.stringLiteral value
  | .longConstant value => Reply.offset <$> Context.longConstant value
  | .realConstant value => Reply.offset <$> Context.realConstant value
  | .addGlobal name ty => Reply.slot <$> Context.addGlobal name ty

/-- The cell that is placed if its key is new. -/
def cell? : Request → Option Cell
  | .registerNative _ | .nativeImport _ => none
  | .stringLiteral value => some (.string value)
  | .longConstant value => some (.long value)
  | .realConstant value => some (.real value)
  | .addGlobal name ty => some (.global name ty)

/-- The key that is asked for. -/
def key? (r : Request) : Option DataKey := r.cell?.map Cell.key

/-- The function that is asked for. -/
def native? : Request → Option SysFunction
  | .registerNative name => SysFunction.lookup? name
  | .nativeImport f => some f
  | _ => none

end Request

/-- The reply to a request for the cell with a given number. -/
def Cell.reply (k : Nat) : Cell → Reply
  | .global _ ty => .slot ⟨wordOffset 0 k, ty⟩
  | _ => .offset (wordOffset 0 k)

theorem Cell.offset?_reply (k : Nat) (cell : Cell) : (cell.reply k).offset? = some (wordOffset 0 k) := by
  cases cell <;> rfl

/-- The reply is right for a context with these cells and imports. -/
structure Request.Answered (r : Request) (reply : Reply) (cells : List Cell) (natives : List SysFunction) :
    Prop where
  cell : ∀ cell, r.cell? = some cell →
    ∃ (k : Nat) (found : Cell), cells[k]? = some found ∧ found.key = cell.key ∧ reply = found.reply k
  native : ∀ f, r.native? = some f →
    ∃ (k : Nat) (g : SysFunction), natives[k]? = some g ∧ g.name = f.name ∧ reply = .index k
  unknown : r.cell? = none → r.native? = none → reply = .unknown

/-- **A reply stays right.** -/
theorem Request.Answered.mono {r : Request} {reply : Reply} {cells cells' : List Cell}
    {natives natives' : List SysFunction} (h : r.Answered reply cells natives) (hcells : cells <+: cells')
    (hnatives : natives <+: natives') : r.Answered reply cells' natives' where
  cell cell hcell := by
    obtain ⟨k, found, hk, hrest⟩ := h.cell cell hcell
    exact ⟨k, found, getElem?_of_prefix hcells hk, hrest⟩
  native f hf := by
    obtain ⟨k, g, hk, hrest⟩ := h.native f hf
    exact ⟨k, g, getElem?_of_prefix hnatives hk, hrest⟩
  unknown := h.unknown

namespace Context

/-- `m` turns the tables of `c` into `cells` and `natives`, with a result as `P` says. If there is no room for
`cells`, it fails. -/
def Serves {α : Type} (m : ContextM α) (c : Context) (cells : List Cell) (natives : List SysFunction)
    (P : α → Prop) : Prop :=
  (HasRoom cells ∧ ∃ a log, m c = .ok a { c with cells, natives, log } ∧ P a) ∨
    (¬ HasRoom cells ∧ ∃ fault c', m c = .error fault c')

/-- One after the other. If there is no room for the first, there is none for both. -/
theorem Serves.bind {α β : Type} {m : ContextM α} {k : α → ContextM β} {c : Context}
    {cells cells' : List Cell} {natives natives' : List SysFunction} {P : α → Prop} {Q : β → Prop}
    (h : Serves m c cells natives P)
    (hk : ∀ a log, HasRoom cells → P a → Serves (k a) { c with cells, natives, log } cells' natives' Q)
    (hle : cells.length ≤ cells'.length) : Serves (m >>= k) c cells' natives' Q := by
  rcases h with ⟨hroom, a, log, hok, hP⟩ | ⟨hfull, fault, t, herror⟩
  · unfold Serves
    rw [bind_of_ok hok]
    exact hk a log hroom hP
  · refine .inr ⟨fun hroom => hfull (hroom.mono hle), fault, t, ?_⟩
    exact bind_of_error herror

theorem Fills.serves {α : Type} {m : ContextM α} {c : Context} {cells : List Cell} (h : Fills m c cells)
    (f : α → Reply) {P : Reply → Prop}
    (hP : ∀ a c', m c = .ok a c' → c'.cells = cells → P (f a)) : Serves (f <$> m) c cells c.natives P := by
  rcases h with ⟨hroom, a, log, hok⟩ | ⟨hfull, fault, t, herror⟩
  · exact .inl ⟨hroom, f a, log, map_ok_iff.mpr ⟨a, hok, rfl⟩, hP a _ hok rfl⟩
  · refine .inr ⟨hfull, fault, t, ?_⟩
    show EStateM.map f m c = _
    rw [EStateM.map, herror]

/-- A global that was added is found. -/
theorem global?_of_addGlobal {name : String} {ty : Ty} {slot : GlobalSlot} {c c' : Context}
    (h : addGlobal name ty c = .ok slot c') :
    ∃ k, c'.cells[k]? = some (.global name slot.ty) ∧ slot.offset = wordOffset 0 k := by
  unfold addGlobal at h
  cases hfound : c.global? name with
  | some slot' =>
    simp only [hfound] at h
    cases h
    exact cell_of_global? hfound
  | none =>
    simp only [hfound] at h
    cases hplace : place (.global name ty) c with
    | error fault t => simp only [hplace] at h; cases h
    | ok offset t =>
      simp only [hplace] at h
      cases h
      obtain ⟨-, rfl, rfl⟩ := place_ok_iff.mp hplace
      exact ⟨c.cells.length, by simp, rfl⟩

end Context

namespace Request

open Context (Serves Fills)

/-- The cells after a request. -/
def cellsAfter (cells : List Cell) (r : Request) : List Cell := r.cell?.toList.foldl (addNew Cell.key) cells

/-- The imports after a request. -/
def nativesAfter (natives : List SysFunction) (r : Request) : List SysFunction :=
  r.native?.toList.foldl (addNew SysFunction.name) natives

theorem foldl_cellsAfter (cells : List Cell) (rs : List Request) :
    rs.foldl cellsAfter cells = (rs.filterMap cell?).foldl (addNew Cell.key) cells := by
  rw [List.filterMap_eq_flatMap_toList, List.foldl_flatMap]
  rfl

theorem foldl_nativesAfter (natives : List SysFunction) (rs : List Request) :
    rs.foldl nativesAfter natives = (rs.filterMap native?).foldl (addNew SysFunction.name) natives := by
  rw [List.filterMap_eq_flatMap_toList, List.foldl_flatMap]
  rfl

theorem prefix_foldl_cellsAfter (cells : List Cell) (rs : List Request) :
    cells <+: rs.foldl cellsAfter cells := by
  rw [foldl_cellsAfter]
  exact prefix_foldl_addNew cells _

theorem prefix_foldl_nativesAfter (natives : List SysFunction) (rs : List Request) :
    natives <+: rs.foldl nativesAfter natives := by
  rw [foldl_nativesAfter]
  exact prefix_foldl_addNew natives _

variable {c : Context}

/-- A request for a constant. -/
theorem serves_intern {r : Request} (cell : Cell) (hroom : HasRoom c.cells) (hcell : r.cell? = some cell)
    (hnative : r.native? = none) (hconstant : cell.globalName? = none) :
    Serves (Reply.offset <$> Context.intern cell) c (r.cellsAfter c.cells) c.natives
      fun reply => r.Answered reply (r.cellsAfter c.cells) c.natives := by
  have hafter : r.cellsAfter c.cells = addNew id c.cells cell := by
    rw [cellsAfter, hcell, ← addNew_key hconstant]
    rfl
  rw [hafter]
  refine (Context.fills_intern cell hroom).serves _ fun offset c' hok hcells => ⟨?_, ?_, ?_⟩
  · intro cell' hcell'
    rw [hcell, Option.some.injEq] at hcell'
    subst hcell'
    obtain ⟨k, hk, rfl⟩ := Context.intern_ok hok
    refine ⟨k, cell, hcells ▸ hk, rfl, ?_⟩
    cases cell with
    | global => cases hconstant
    | _ => rfl
  · intro f hf
    rw [hnative] at hf
    cases hf
  · intro hnone
    rw [hcell] at hnone
    cases hnone

/-- A request for a function. -/
theorem serves_nativeImport {r : Request} {f : SysFunction} (hroom : HasRoom c.cells) (hcell : r.cell? = none)
    (hnative : r.native? = some f) : Serves (Reply.index <$> Context.nativeImport f) c c.cells
      (r.nativesAfter c.natives) fun reply => r.Answered reply c.cells (r.nativesAfter c.natives) := by
  have hafter : r.nativesAfter c.natives = addNew SysFunction.name c.natives f := by
    rw [nativesAfter, hnative]
    rfl
  obtain ⟨index, himport⟩ := Context.nativeImport_eq f c
  rw [hafter]
  refine .inl ⟨hroom, .index index, c.log, map_ok_iff.mpr ⟨index, himport, rfl⟩, ?_, ?_, ?_⟩
  · intro cell hcell'
    rw [hcell] at hcell'
    cases hcell'
  · intro g hg
    rw [hnative, Option.some.injEq] at hg
    subst hg
    obtain ⟨g, hg, hname⟩ := Context.nativeImport_ok himport
    exact ⟨index, g, hg, hname, rfl⟩
  · intro _ hnone
    rw [hnative] at hnone
    cases hnone

/-- **One request:** what is new is added, and the reply is right. -/
theorem perform_outcome (r : Request) (hroom : HasRoom c.cells) :
    Serves r.perform c (r.cellsAfter c.cells) (r.nativesAfter c.natives)
      fun reply => r.Answered reply (r.cellsAfter c.cells) (r.nativesAfter c.natives) := by
  cases r with
  | stringLiteral value => exact serves_intern (.string value) hroom rfl rfl rfl
  | longConstant value => exact serves_intern (.long value) hroom rfl rfl rfl
  | realConstant value => exact serves_intern (.real value) hroom rfl rfl rfl
  | nativeImport f => exact serves_nativeImport (r := .nativeImport f) hroom rfl rfl
  | registerNative name =>
    cases hlookup : SysFunction.lookup? name with
    | some f =>
      have hregister : Context.registerNative name = some <$> Context.nativeImport f := by
        unfold Context.registerNative
        rw [hlookup]
      have hperform : (registerNative name).perform = Reply.index <$> Context.nativeImport f := by
        show _ <$> Context.registerNative name = _
        rw [hregister, ← comp_map]
        rfl
      rw [hperform]
      exact serves_nativeImport (r := .registerNative name) hroom rfl hlookup
    | none =>
      -- an unknown name leaves everything as it is
      have hperform : (registerNative name).perform c = .ok .unknown c := by
        have hregister : Context.registerNative name = pure none := by
          unfold Context.registerNative
          rw [hlookup]
        show EStateM.map _ (Context.registerNative name) c = _
        rw [hregister]
        rfl
      have hnatives : (registerNative name).nativesAfter c.natives = c.natives := by
        simp [nativesAfter, native?, hlookup]
      rw [hnatives]
      refine .inl ⟨hroom, .unknown, c.log, hperform, nofun, ?_, fun _ _ => rfl⟩
      intro f hf
      rw [native?, hlookup] at hf
      cases hf
  | addGlobal name ty =>
    have hafter : (addGlobal name ty).cellsAfter c.cells = addGlobalCell c.cells ⟨name, ty⟩ :=
      addNew_key_global c.cells ⟨name, ty⟩
    rw [hafter]
    refine (Context.fills_addGlobal ⟨name, ty⟩ hroom).serves Reply.slot fun slot c' hok hcells =>
      ⟨?_, nofun, nofun⟩
    rintro cell ⟨⟩
    obtain ⟨k, hk, hoffset⟩ := Context.global?_of_addGlobal hok
    exact ⟨k, .global name slot.ty, hcells ▸ hk, rfl, by rw [Cell.reply, ← hoffset]⟩

/-- **Any number of requests:** all replies are right of what there is in the end. -/
theorem performAll_outcome (rs : List Request) {c : Context} (hroom : HasRoom c.cells) :
    Serves (rs.mapM perform) c (rs.foldl cellsAfter c.cells) (rs.foldl nativesAfter c.natives)
      (List.Forall₂ (fun r reply =>
        r.Answered reply (rs.foldl cellsAfter c.cells) (rs.foldl nativesAfter c.natives)) rs) := by
  induction rs generalizing c with
  | nil => exact .inl ⟨hroom, [], c.log, rfl, .nil⟩
  | cons r rest ih =>
    have hcells := prefix_foldl_cellsAfter (r.cellsAfter c.cells) rest
    have hnatives := prefix_foldl_nativesAfter (r.nativesAfter c.natives) rest
    rw [List.mapM_cons, List.foldl_cons, List.foldl_cons]
    -- the reply to `r` is right of the tables after it, of which those in the end are continuations
    refine (perform_outcome r hroom).bind (fun reply log hroom' hreply => ?_) hcells.length_le
    refine (ih (c := ⟨c.program, r.cellsAfter c.cells, r.nativesAfter c.natives, log⟩) hroom').bind
      (fun replies log' hroom'' hreplies => ?_) (Nat.le_refl _)
    exact .inl ⟨hroom'', _, log', rfl, .cons (hreply.mono hcells hnatives) hreplies⟩

/-! ## What was asked for -/

/-- The keys that have words after the requests. The handle and the path of the system module are there from
the start. -/
def keys (rs : List Request) : List DataKey :=
  (.handle :: .string SysFunction.modulePath :: rs.filterMap key?).eraseDups

/-- The cells after the requests. -/
def cells (rs : List Request) : List Cell :=
  distinctBy Cell.key ([.handle, .string SysFunction.modulePath] ++ rs.filterMap cell?)

/-- The imports after the requests. -/
def natives (rs : List Request) : List SysFunction :=
  distinctBy SysFunction.name ([SysFunction.print] ++ rs.filterMap native?)

/-- The request declares the global. -/
def declares (name : String) : Request → Bool
  | .addGlobal n _ => n == name
  | _ => false

/-- The first declaration of the global is one of type `ty`. -/
def FirstDeclares (rs : List Request) (name : String) (ty : Ty) : Prop :=
  rs.find? (declares name) = some (.addGlobal name ty)

/-- All functions that are asked for are those of the system module. -/
def Genuine (rs : List Request) : Prop := ∀ f ∈ rs.filterMap native?, SysFunction.lookup? f.name = some f

variable {rs : List Request}

theorem map_key_cells (rs : List Request) : (cells rs).map Cell.key = keys rs := by
  rw [cells, map_key_distinctBy, List.map_append, List.map_filterMap]
  rfl

theorem nodup_keys (rs : List Request) : (keys rs).Nodup := nodup_eraseDups _

theorem length_cells (rs : List Request) : (cells rs).length = (keys rs).length := by
  rw [← map_key_cells, List.length_map]

theorem cells_zero (rs : List Request) : (cells rs)[0]? = some .handle := by
  rw [cells, distinctBy_append (by decide)]
  rfl

theorem cells_one (rs : List Request) : (cells rs)[1]? = some (.string SysFunction.modulePath) := by
  rw [cells, distinctBy_append (by decide)]
  rfl

/-- A key has one word. -/
theorem index_unique {j k : Nat} {a b : Cell} (ha : (cells rs)[j]? = some a) (hb : (cells rs)[k]? = some b)
    (hkey : a.key = b.key) : j = k := by
  have hlt : j < (keys rs).length := by
    rw [← length_cells]
    exact (List.getElem?_eq_some_iff.mp ha).1
  refine (List.getElem?_inj hlt (nodup_keys rs)).mp ?_
  rw [← map_key_cells, List.getElem?_map, List.getElem?_map, ha, hb, Option.map_some, Option.map_some, hkey]

/-- **A global has the type of its first declaration.** -/
theorem global_mem_cells_iff {name : String} {ty : Ty} :
    Cell.global name ty ∈ cells rs ↔ FirstDeclares rs name ty := by
  have hdeclares : (fun r : Request => Option.any (fun cell => cell.key == (Cell.global name ty).key) r.cell?)
      = declares name := by
    funext r
    cases r with
    | addGlobal n t => simp [cell?, declares, Cell.key]
    | _ => rfl
  have hfind : ([Cell.handle, .string SysFunction.modulePath] ++ rs.filterMap cell?).find?
      (fun cell => cell.key == (Cell.global name ty).key) = (rs.find? (declares name)).bind cell? := by
    rw [← hdeclares, ← List.find?_filterMap]
    rfl
  rw [cells, mem_distinctBy_iff, hfind, Option.bind_eq_some_iff]
  constructor
  · rintro ⟨r, hr, hcell⟩
    cases r with
    | addGlobal n t => cases hcell; exact hr
    | _ => cases hcell
  · exact fun h => ⟨_, h, rfl⟩

theorem FirstDeclares.unique {name : String} {ty ty' : Ty} (h : FirstDeclares rs name ty)
    (h' : FirstDeclares rs name ty') : ty = ty' := by
  rw [FirstDeclares, h, Option.some.injEq] at h'
  cases h'
  rfl

end Request

/-! ## The finished segment -/

/-- A context whose cells are within reach can be finished. -/
theorem Context.finish_total {c : Context} (hroom : HasRoom c.cells) : ∃ data c', finish c = .ok data c' := by
  have hnext : c.moduleData.nextOffset ≤ operandMax := by
    rw [nextOffset_moduleData]
    exact hroom
  have hsize : FitsInt32 (max c.moduleData.size 0 + wordBytes) := by
    unfold ModuleData.size
    unfold operandMax at hnext
    unfold wordBytes FitsInt32
    omega
  obtain ⟨descriptor, hdescriptor⟩ := describe_total 0 c.moduleData.words zero_eq_words hsize
  exact ⟨_, _, finish_of_described hdescriptor⟩

/-- By what the requests were told, and the segment says, the word of the key is at the offset. -/
inductive LiesAt (rs : List Request) (replies : List Reply) (data : DataSegment) : DataKey → Int → Prop where
  | handle : LiesAt rs replies data .handle data.sysOffset
  | path : LiesAt rs replies data (.string SysFunction.modulePath) data.sysPathOffset
  | request {r : Request} {reply : Reply} {key : DataKey} {offset : Int} (told : (r, reply) ∈ rs.zip replies)
    (asked : r.key? = some key) (found : reply.offset? = some offset) : LiesAt rs replies data key offset

/-- The replies to requests, and the segment that is finished after them. -/
structure Served (rs : List Request) (replies : List Reply) (data : DataSegment) : Prop where
  length : replies.length = rs.length
  /-- A request for a key is told an offset; for a global, with the type of its first declaration. -/
  told : ∀ r reply, (r, reply) ∈ rs.zip replies → ∀ key, r.key? = some key →
    ∃ offset, LiesAt rs replies data key offset ∧
      ((∀ name, key ≠ .global name) → reply = .offset offset) ∧
      ∀ name, key = .global name → ∃ ty, reply = .slot ⟨offset, ty⟩ ∧ Request.FirstDeclares rs name ty
  /-- A key has one offset, and no two keys have the same. -/
  apart : ∀ key offset key' offset', LiesAt rs replies data key offset →
    LiesAt rs replies data key' offset' → (key = key' ↔ offset = offset')
  /-- The offsets are words of the segment, -/
  inside : ∀ key offset, LiesAt rs replies data key offset →
    ∃ k : Nat, offset = wordBytes * k ∧ offset < data.size
  /-- which has no others. -/
  size : data.size = wordBytes * (Request.keys rs).length
  /-- The loader fills the strings and the numbers with their values, -/
  items : ∀ item, item ∈ data.items ↔
    ∃ key offset, LiesAt rs replies data key offset ∧ key.item? offset = some item
  /-- each once, -/
  count : data.items.length = (Request.keys rs).countP fun key => (key.item? 0).isSome
  /-- in the order of their offsets. -/
  increasing : (data.items.map DataItem.offset).Pairwise (· < ·)
  descriptorSize : data.descriptor.size = data.size
  /-- The garbage collector follows the handle, the strings and the globals whose first declaration says
  so. -/
  pointers : ∀ offset, offset ∈ data.descriptor.pointerOffsets ↔ ∃ key, LiesAt rs replies data key offset ∧
    (key = .handle ∨ (∃ value, key = .string value) ∨
      ∃ name ty, key = .global name ∧ Request.FirstDeclares rs name ty ∧ ty.isPointer = true)
  /-- The imports are `print` and what was asked for, by name, -/
  imports : data.imports = (Request.natives rs).map SysFunction.toImport
  first : data.imports.head? = some SysFunction.print.toImport
  /-- each once. -/
  distinct : (data.imports.map Import.name).Nodup
  /-- A request for a function is told its position. -/
  index : ∀ r reply, (r, reply) ∈ rs.zip replies → ∀ f, r.native? = some f →
    ∃ k g, reply = .index k ∧ data.imports[k]? = some g.toImport ∧ g.name = f.name ∧
      (Request.Genuine rs → g = f)
  unknown : ∀ r reply, (r, reply) ∈ rs.zip replies → r.key? = none → r.native? = none → reply = .unknown

/-- Right replies, and the segment of the context they are right of. -/
structure Finished (rs : List Request) (replies : List Reply) (data : DataSegment) : Prop where
  replies : List.Forall₂ (fun r reply => r.Answered reply (Request.cells rs) (Request.natives rs)) rs replies
  sysOffset : data.sysOffset = wordOffset 0 0
  sysPathOffset : data.sysPathOffset = wordOffset 0 1
  size : data.size = wordBytes * (Request.cells rs).length
  items : data.items = itemsFrom 0 (Request.cells rs)
  imports : data.imports = (Request.natives rs).map SysFunction.toImport
  descriptor : describe 0 data.size 0 ((Request.cells rs).map Cell.isPointer) = .ok data.descriptor

namespace Finished

open Request

variable {rs : List Request} {replies : List Reply} {data : DataSegment} {key : DataKey} {offset : Int}

theorem answered (h : Finished rs replies data) {r : Request} {reply : Reply}
    (htold : (r, reply) ∈ rs.zip replies) : r.Answered reply (cells rs) (natives rs) :=
  (List.forall₂_iff_zip.mp h.replies).2 htold

theorem reply_of_mem (h : Finished rs replies data) {r : Request} (hr : r ∈ rs) :
    ∃ reply, (r, reply) ∈ rs.zip replies := by
  obtain ⟨k, hk, rfl⟩ := List.getElem_of_mem hr
  have hk' : k < replies.length := h.replies.length_eq ▸ hk
  refine ⟨replies[k], List.mem_iff_getElem?.mpr ⟨k, ?_⟩⟩
  rw [List.getElem?_zip_eq_some]
  exact ⟨List.getElem?_eq_getElem hk, List.getElem?_eq_getElem hk'⟩

/-- The cell of a request for a key. -/
theorem cell_of_request (h : Finished rs replies data) {r : Request} {reply : Reply}
    (htold : (r, reply) ∈ rs.zip replies) (hkey : r.key? = some key) :
    ∃ (k : Nat) (found : Cell), (cells rs)[k]? = some found ∧ found.key = key ∧ reply = found.reply k := by
  obtain ⟨cell, hcell, rfl⟩ := Option.map_eq_some_iff.mp hkey
  exact (h.answered htold).cell cell hcell

/-- **The words of the keys are the cells.** -/
theorem liesAt_iff (h : Finished rs replies data) : LiesAt rs replies data key offset ↔
    ∃ (k : Nat) (cell : Cell), (cells rs)[k]? = some cell ∧ cell.key = key ∧ offset = wordOffset 0 k := by
  constructor
  · rintro (_ | _ | ⟨htold, hkey, hoffset⟩)
    · exact ⟨0, .handle, cells_zero rs, rfl, h.sysOffset⟩
    · exact ⟨1, .string _, cells_one rs, rfl, h.sysPathOffset⟩
    · obtain ⟨k, found, hk, hfound, rfl⟩ := h.cell_of_request htold hkey
      rw [Cell.offset?_reply, Option.some.injEq] at hoffset
      exact ⟨k, found, hk, hfound, hoffset.symm⟩
  · rintro ⟨k, cell, hk, rfl, rfl⟩
    have hmem := (distinctBy_sublist _).subset (List.mem_of_getElem? hk)
    rw [List.mem_append, List.mem_pair, or_assoc] at hmem
    rcases hmem with rfl | rfl | hasked
    · obtain rfl := index_unique hk (cells_zero rs) rfl
      exact h.sysOffset ▸ .handle
    · obtain rfl := index_unique hk (cells_one rs) rfl
      exact h.sysPathOffset ▸ .path
    · -- any request for the key was told the place of this cell, since no other has the key
      obtain ⟨r, hr, hcell⟩ := List.mem_filterMap.mp hasked
      obtain ⟨reply, htold⟩ := h.reply_of_mem hr
      have hkey : r.key? = some cell.key := Option.map_eq_some_iff.mpr ⟨cell, hcell, rfl⟩
      obtain ⟨j, found, hj, hfound, rfl⟩ := h.cell_of_request htold hkey
      obtain rfl := index_unique hj hk hfound
      exact .request htold hkey (found.offset?_reply j)

theorem apart (h : Finished rs replies data) {key' : DataKey} {offset' : Int}
    (hkey : LiesAt rs replies data key offset) (hkey' : LiesAt rs replies data key' offset') :
    key = key' ↔ offset = offset' := by
  obtain ⟨j, a, ha, rfl, rfl⟩ := h.liesAt_iff.mp hkey
  obtain ⟨k, b, hb, rfl, rfl⟩ := h.liesAt_iff.mp hkey'
  constructor
  · intro heq
    rw [index_unique ha hb heq]
  · intro heq
    obtain rfl := wordOffset_injective heq
    rw [ha, Option.some.injEq] at hb
    rw [hb]

theorem inside (h : Finished rs replies data) (hkey : LiesAt rs replies data key offset) :
    ∃ k : Nat, offset = wordBytes * k ∧ offset < data.size := by
  obtain ⟨k, cell, hk, -, rfl⟩ := h.liesAt_iff.mp hkey
  have hlt := (List.getElem?_eq_some_iff.mp hk).1
  refine ⟨k, Int.zero_add _, ?_⟩
  rw [h.size, ← Int.zero_add (wordBytes * _)]
  exact wordOffset_lt_iff.mpr hlt

theorem told (h : Finished rs replies data) {r : Request} {reply : Reply}
    (htold : (r, reply) ∈ rs.zip replies) (hkey : r.key? = some key) :
    ∃ offset, LiesAt rs replies data key offset ∧
      ((∀ name, key ≠ .global name) → reply = .offset offset) ∧
      ∀ name, key = .global name → ∃ ty, reply = .slot ⟨offset, ty⟩ ∧ FirstDeclares rs name ty := by
  obtain ⟨k, found, hk, rfl, rfl⟩ := h.cell_of_request htold hkey
  refine ⟨wordOffset 0 k, h.liesAt_iff.mpr ⟨k, found, hk, rfl, rfl⟩, ?_, ?_⟩
  · intro hconstant
    cases found with
    | global name ty => exact absurd rfl (hconstant name)
    | _ => rfl
  · intro name hname
    obtain ⟨ty, rfl⟩ := Cell.key_eq_global_iff.mp hname
    exact ⟨ty, rfl, global_mem_cells_iff.mp (List.mem_of_getElem? hk)⟩

theorem mem_items_iff (h : Finished rs replies data) {item : DataItem} : item ∈ data.items ↔
    ∃ key offset, LiesAt rs replies data key offset ∧ key.item? offset = some item := by
  rw [h.items, mem_itemsFrom]
  constructor
  · rintro ⟨k, cell, hk, hitem⟩
    exact ⟨cell.key, wordOffset 0 k, h.liesAt_iff.mpr ⟨k, cell, hk, rfl, rfl⟩, by rw [cell.item?_key, hitem]⟩
  · rintro ⟨key, offset, hlies, hitem⟩
    obtain ⟨k, cell, hk, rfl, rfl⟩ := h.liesAt_iff.mp hlies
    exact ⟨k, cell, hk, by rw [← cell.item?_key, hitem]⟩

theorem length_items (h : Finished rs replies data) :
    data.items.length = (keys rs).countP fun key => (key.item? 0).isSome := by
  rw [h.items, length_itemsFrom, ← map_key_cells, List.countP_map]
  refine List.countP_congr fun cell _ => ?_
  cases cell <;> simp [Cell.isFilled, Cell.key, DataKey.item?]

theorem mem_pointerOffsets_iff (h : Finished rs replies data) : offset ∈ data.descriptor.pointerOffsets ↔
    ∃ key, LiesAt rs replies data key offset ∧ (key = .handle ∨ (∃ value, key = .string value) ∨
      ∃ name ty, key = .global name ∧ FirstDeclares rs name ty ∧ ty.isPointer = true) := by
  rw [mem_pointerOffsets_of_describe h.descriptor zero_eq_words]
  simp only [List.getElem?_map, Option.map_eq_some_iff]
  constructor
  · rintro ⟨k, ⟨cell, hk, hpointer⟩, rfl⟩
    refine ⟨cell.key, h.liesAt_iff.mpr ⟨k, cell, hk, rfl, rfl⟩, ?_⟩
    rcases Cell.isPointer_iff.mp hpointer with rfl | ⟨value, rfl⟩ | ⟨name, ty, rfl, hty⟩
    · exact .inl rfl
    · exact .inr (.inl ⟨value, rfl⟩)
    · exact .inr (.inr ⟨name, ty, rfl, global_mem_cells_iff.mp (List.mem_of_getElem? hk), hty⟩)
  · rintro ⟨key, hlies, hpointer⟩
    obtain ⟨k, cell, hk, rfl, rfl⟩ := h.liesAt_iff.mp hlies
    refine ⟨k, ⟨cell, hk, ?_⟩, rfl⟩
    rcases hpointer with hkey | ⟨value, hkey⟩ | ⟨name, ty, hkey, hfirst, hty⟩
    · cases cell with
      | handle => rfl
      | _ => cases hkey
    · cases cell with
      | string => rfl
      | _ => cases hkey
    · obtain ⟨ty', rfl⟩ := Cell.key_eq_global_iff.mp hkey
      obtain rfl := hfirst.unique (global_mem_cells_iff.mp (List.mem_of_getElem? hk))
      exact hty

theorem index (h : Finished rs replies data) {r : Request} {reply : Reply}
    (htold : (r, reply) ∈ rs.zip replies) {f : SysFunction} (hf : r.native? = some f) :
    ∃ k g, reply = .index k ∧ data.imports[k]? = some g.toImport ∧ g.name = f.name ∧
      (Genuine rs → g = f) := by
  obtain ⟨k, g, hk, hname, rfl⟩ := (h.answered htold).native f hf
  refine ⟨k, g, rfl, by rw [h.imports, List.getElem?_map, hk, Option.map_some], hname, fun hgenuine => ?_⟩
  -- two functions of the system module with one name are the same
  have hg : SysFunction.lookup? g.name = some g := by
    rcases List.mem_append.mp ((distinctBy_sublist _).subset (List.mem_of_getElem? hk)) with hprint | hasked
    · obtain rfl := List.mem_singleton.mp hprint
      decide
    · exact hgenuine g hasked
  have hf' := hgenuine f (List.mem_filterMap.mpr ⟨r, (List.of_mem_zip htold).1, hf⟩)
  rw [← hname, hg, Option.some.injEq] at hf'
  exact hf'

theorem served (h : Finished rs replies data) : Served rs replies data where
  length := h.replies.length_eq.symm
  told _ _ htold _ hkey := h.told htold hkey
  apart _ _ _ _ := h.apart
  inside _ _ := h.inside
  size := by rw [h.size, length_cells]
  items _ := h.mem_items_iff
  count := h.length_items
  increasing := by
    rw [h.items]
    exact itemsFrom_increasing _ _
  descriptorSize := (describe_ok h.descriptor).2
  pointers _ := h.mem_pointerOffsets_iff
  imports := h.imports
  first := by
    rw [h.imports, natives, distinctBy_append (by decide)]
    rfl
  distinct := by
    rw [h.imports, List.map_map]
    exact nodup_key_distinctBy SysFunction.name _
  index _ _ htold _ hf := h.index htold hf
  unknown r reply htold hkey hnative := by
    refine (h.answered htold).unknown ?_ hnative
    simpa [key?] using hkey

end Finished

namespace Context

/-- The run on a new context. -/
theorem performAll_initial (program : Program) (log : Log) (rs : List Request) :
    Serves (rs.mapM Request.perform) (initial program log) (Request.cells rs) (Request.natives rs)
      (List.Forall₂ (fun r reply => r.Answered reply (Request.cells rs) (Request.natives rs)) rs) := by
  have hroom : HasRoom (initial program log).cells := by
    show HasRoom [.handle, .string SysFunction.modulePath]
    decide
  have hcells : rs.foldl Request.cellsAfter (initial program log).cells = Request.cells rs := by
    rw [Request.foldl_cellsAfter]
    have hnodup : ([Cell.handle, .string SysFunction.modulePath].map Cell.key).Nodup := by decide
    exact foldl_addNew hnodup _
  have hnatives : rs.foldl Request.nativesAfter (initial program log).natives = Request.natives rs := by
    rw [Request.foldl_nativesAfter]
    have hnodup : ([SysFunction.print].map SysFunction.name).Nodup := by decide
    exact foldl_addNew hnodup _
  have hrun := Request.performAll_outcome rs hroom
  rw [hcells, hnatives] at hrun
  exact hrun

theorem hasRoom_cells_iff {rs : List Request} :
    HasRoom (Request.cells rs) ↔ wordBytes * (Request.keys rs).length ≤ operandMax := by
  unfold HasRoom wordOffset
  rw [Request.length_cells, Int.zero_add]

/-- Finishing a context with the right cells and imports. -/
theorem finished {rs : List Request} {replies : List Reply} {c c' : Context} {data : DataSegment}
    (hcells : c.cells = Request.cells rs) (hnatives : c.natives = Request.natives rs)
    (hreplies :
      List.Forall₂ (fun r reply => r.Answered reply (Request.cells rs) (Request.natives rs)) rs replies)
    (hfinish : finish c = .ok data c') : Finished rs replies data := by
  obtain ⟨hdescriptor, hdata⟩ := finish_ok hfinish
  have hne : c.cells ≠ [] := by
    rw [hcells]
    exact List.ne_nil_of_mem (List.mem_of_getElem? (Request.cells_zero rs))
  have hsize : c.moduleData.size = wordBytes * (Request.cells rs).length := by
    rw [size_moduleData hne, hcells]
  rw [hdata]
  refine ⟨hreplies, rfl, rfl, hsize, ?_, ?_, ?_⟩
  · rw [← hcells]
    rfl
  · rw [← hnatives]
  · rw [← hcells]
    exact hdescriptor

/-- **Every key has one word and every function one import,** whatever is asked for in between, as long as
there is room in module data. -/
theorem performAll_served (program : Program) (log : Log) (rs : List Request) :
    (wordBytes * (Request.keys rs).length ≤ operandMax →
      ∃ replies c data c', rs.mapM Request.perform (initial program log) = .ok replies c ∧
        finish c = .ok data c' ∧ Served rs replies data) ∧
    (operandMax < wordBytes * (Request.keys rs).length →
      ∃ fault c, rs.mapM Request.perform (initial program log) = .error fault c) := by
  rcases performAll_initial program log rs with
    ⟨hroom, replies, log', hok, hreplies⟩ | ⟨hfull, fault, c, herror⟩
  · refine ⟨fun _ => ?_, fun hfull => absurd (hasRoom_cells_iff.mp hroom) (Int.not_le.mpr hfull)⟩
    let c : Context :=
      { initial program log with cells := Request.cells rs, natives := Request.natives rs, log := log' }
    obtain ⟨data, c', hfinish⟩ := finish_total (c := c) hroom
    exact ⟨replies, _, data, c', hok, hfinish, (finished rfl rfl hreplies hfinish).served⟩
  · exact ⟨fun hroom => absurd (hasRoom_cells_iff.mpr hroom) hfull, fun _ => ⟨fault, c, herror⟩⟩

end Context

end DisBackend
