import DisBackend.Reporting
import DisBackend.Ssa.Program
import DisBackend.Sys

/-!
# `Context` — what the functions of a module share

All functions of a module use one data segment and one import table. The segment holds the handle of
the system module, strings, large constants and global variables, each in a cell of one word that is
placed at first use; the import table holds the system functions in the order of their first use.

The cells are kept in one list, so that a cell's position gives its offset and what was placed is
found again by looking for it.

## Contents

* `Cell` — what a word of module data is for;
* `Context`, `Context.initial`;
* `Context.intern`, `Context.stringLiteral`, `Context.longConstant`, `Context.realConstant`,
  `Context.addGlobal`, `Context.global?` — the cells;
* `Context.nativeImport`, `Context.registerNative` — the import table;
* `DataSegment`, `Context.finish` — the result.
-/

namespace DisBackend

open Ssa (Function Program Ty)

/-- What a word of module data is for. -/
inductive Cell where
  /-- The system module, once it is loaded. -/
  | handle
  | string (value : String)
  | long (value : Int64)
  | real (value : Double)
  | global (name : String) (ty : Ty)
  deriving DecidableEq, Repr, Inhabited

namespace Cell

/-- The garbage collector follows the cell. -/
def isPointer : Cell → Bool
  | .handle | .string _ => true
  | .long _ | .real _ => false
  | .global _ ty => ty.isPointer

/-- A cell as events name it. -/
def tag : Cell → String
  | .handle => "$Sys handle"
  | .string value => value
  | .long value => toString value.toInt
  | .real value => value.text Double.dataLayout
  | .global name _ => name

/-- The data item that fills the cell at `offset`. The handle and the variables start out empty. -/
def item? (offset : Int) : Cell → Option DataItem
  | .handle | .global .. => none
  | .string value => some (.string offset value)
  | .long value => some (.longs offset [value])
  | .real value => some (.reals offset [value])

end Cell

/-- Where a global variable lies. -/
structure GlobalSlot where
  offset : Int
  ty : Ty
  deriving DecidableEq, Repr, Inhabited

/-- The offset of the system module's handle: it is the first cell. -/
def sysOffset : Int := 0

/-- The offset of the system module's path: it is the second cell. -/
def sysPathOffset : Int := 8

/-- What the functions of a module share. -/
structure Context where
  program : Program
  /-- The words of module data. -/
  cells : List Cell
  /-- The system functions imported. -/
  natives : List SysFunction
  log : Log

/-- A computation on the shared context. -/
abbrev ContextM := EStateM Fault Context

namespace Context

/-- The words of module data, without what they are for. -/
def moduleData (c : Context) : ModuleData := ⟨c.cells.map Cell.isPointer⟩

/-- The event of placing a cell. -/
def placedEvent (offset : Int) (cell : Cell) : Event := .dataPlaced offset cell.tag cell.isPointer

/-- A context with the handle and the path of the system module and the import of `print`. -/
def initial (program : Program) (log : Log) : Context where
  program
  cells := [.handle, .string SysFunction.modulePath]
  natives := [SysFunction.print]
  log := (log.push (placedEvent sysOffset .handle)).push
    (placedEvent sysPathOffset (.string SysFunction.modulePath))

/-! ## Cells -/

/-- The offset of a cell that was placed. -/
def offsetOf? (c : Context) (cell : Cell) : Option Int :=
  (c.cells.idxOf? cell).map (wordOffset 0)

/-- Places a cell behind the others. -/
def place (cell : Cell) : ContextM Int := fun c =>
  match reserveWord c.moduleData cell.tag cell.isPointer c.log with
  | .ok (offset, _) log => .ok offset { c with cells := c.cells ++ [cell], log }
  | .error fault log => .error fault { c with log }

/-- The offset of a cell, which is placed if it was not yet. -/
def intern (cell : Cell) : ContextM Int := fun c =>
  match c.offsetOf? cell with
  | some offset => .ok offset c
  | none => place cell c

/-- The offset of a string. -/
def stringLiteral (value : String) : ContextM Int := intern (.string value)

/-- The offset of an integer. -/
def longConstant (value : Int64) : ContextM Int := intern (.long value)

/-- The offset of a real. Reals are told apart by their bits. -/
def realConstant (value : Double) : ContextM Int := intern (.real value)

/-- The first cell of a global with a given name, among cells from number `index` on. -/
def findGlobal? (name : String) : (index : Nat) → List Cell → Option GlobalSlot
  | _, [] => none
  | index, .global n ty :: rest =>
    if n = name then some ⟨wordOffset 0 index, ty⟩ else findGlobal? name (index + 1) rest
  | index, _ :: rest => findGlobal? name (index + 1) rest

/-- Where a global lies. -/
def global? (c : Context) (name : String) : Option GlobalSlot := findGlobal? name 0 c.cells

/-- Places a global. If one of that name was placed before, it counts, with its type. -/
def addGlobal (name : String) (ty : Ty) : ContextM GlobalSlot := fun c =>
  match c.global? name with
  | some slot => .ok slot c
  | none =>
    match place (.global name ty) c with
    | .ok offset c => .ok ⟨offset, ty⟩ c
    | .error fault c => .error fault c

/-! ## Imports -/

/-- The position of a system function in the import table; it is added if it was not there yet. -/
def nativeImport (f : SysFunction) : ContextM Nat := fun c =>
  match c.natives.findIdx? (·.name == f.name) with
  | some index => .ok index c
  | none => .ok c.natives.length { c with natives := c.natives ++ [f] }

/-- The position of the system function with a given name, if there is one. -/
def registerNative (name : String) : ContextM (Option Nat) :=
  match SysFunction.lookup? name with
  | some f => some <$> nativeImport f
  | none => pure none

end Context

/-! ## The result -/

/-- Module data and imports when all functions are done. -/
structure DataSegment where
  descriptor : TypeDescriptor
  size : Int
  /-- In increasing order of offsets. -/
  items : List DataItem
  imports : List Import
  sysOffset : Int
  sysPathOffset : Int
  deriving DecidableEq, Repr

namespace Context

/-- The data items of the cells, in the order of the cells. -/
def items (c : Context) : List DataItem :=
  c.cells.zipIdx.filterMap fun (cell, index) => cell.item? (wordOffset 0 index)

/-- Adds an event. -/
def report (e : Event) : ContextM Unit := fun c => .ok () { c with log := c.log.push e }

/-- The data segment and the import table of a module. -/
def finish : ContextM DataSegment := do
  let c ← get
  report (.dataFinished c.moduleData.size c.items.length c.natives.length)
  match c.moduleData.descriptor 0 with
  | .ok descriptor =>
    return { descriptor, size := c.moduleData.size, items := c.items,
             imports := c.natives.map SysFunction.toImport, sysOffset, sysPathOffset }
  | .error fault => throw fault

end Context
end DisBackend
