import DisBackend.Ssa.Program
import DisBackend.Proofs.Semantics.Datum

/-!
# `Proofs.Semantics.Program` — what a function of a program means

A function works on values that are bound once they are computed, on global variables and on objects. A
value is a word together with the type at which the program reads it. Using a value that is not bound, an
operation that the types of its operands do not have, a global that is not declared and a field that an
object does not have have no meaning: the function is stuck.

A phi is bound when control enters its block. All phis of a block are bound at the same time, each to the
value of its first edge from the block control comes from; where the phi stands, nothing is left to do.

## Contents

* `Value`, `Memory`, `Config`, `Progress` — states and results;
* `phiValues?`, `Config.enter?` — taking an edge;
* `Config.execute?`, `Config.step?` — one instruction;
* `Config.initial` — the start.
-/

namespace DisBackend.Ssa

/-- A word, and the type at which the program reads it. -/
structure Value where
  ty : Ty
  word : Datum
  deriving DecidableEq, Repr

/-- The value of a constant. -/
def Constant.value : Constant → Value
  | .int n => ⟨.int, .int n⟩
  | .real r => ⟨.real, .real r⟩
  | .bool b => ⟨.bool, .truth b⟩
  | .string s => ⟨.string, .string s⟩

/-- The type that two values share. -/
def Value.sharedType? (a b : Value) : Option Ty := if a.ty = b.ty then some a.ty else none

theorem Value.sharedType?_eq {a b : Value} {ty : Ty} (h : a.sharedType? b = some ty) : a.ty = ty := by
  unfold Value.sharedType? at h
  by_cases he : a.ty = b.ty
  · rw [if_pos he] at h; exact Option.some.inj h
  · rw [if_neg he] at h; cases h

/-- The global variables and the objects. An object has one word for each field. -/
structure Memory where
  globals : String → Datum
  heap : List Area

namespace Memory

/-- Gives a global a value. -/
def setGlobal (m : Memory) (name : String) (w : Datum) : Memory :=
  { m with globals := fun n => if n = name then w else m.globals n }

/-- A new object, and the memory with it. -/
def allocate (P : Platform) (m : Memory) (fields : Nat) : Datum × Memory :=
  (.object m.heap.length,
    { m with heap := m.heap ++ [(List.range fields).map (P.fresh m.heap.length)] })

/-- The value of a field of the object that a word refers to. -/
def field? (m : Memory) (field : Nat) : Datum → Option Datum
  | .object number => do (← m.heap[number]?)[field]?
  | _ => none

/-- Gives a field of the object that a word refers to a value. -/
def setField? (m : Memory) (field : Nat) (w : Datum) : Datum → Option Memory
  | .object number => do
    let object ← m.heap[number]?
    if field < object.length then
      some { m with heap := m.heap.set number (object.set field w) }
    else none
  | _ => none

end Memory

/-- Where control is, the values that are bound, and the memory. -/
structure Config where
  block : BlockId
  position : Nat
  values : ValueId → Option Value
  memory : Memory

/-- What an instruction leads to. -/
inductive Progress where
  | next (c : Config)
  | returned (word : Option Datum) (memory : Memory)

namespace Config

/-- The next instruction of the block, with another memory. -/
def advance (c : Config) (memory : Memory) : Config :=
  { c with position := c.position + 1, memory }

/-- The next instruction of the block, after `dst` has been bound. -/
def define (c : Config) (dst : ValueId) (x : Value) : Config :=
  { c with position := c.position + 1, values := fun v => if v = dst then some x else c.values v }

/-- The values of the phis among `instructions` when control comes from `source`. -/
def phiValues? (values : ValueId → Option Value) (source : BlockId) :
    List Instr → Option (List (ValueId × Value))
  | [] => some []
  | .phi dst _ incoming :: rest => do
    let edge ← incoming.find? (·.block = source)
    let x ← values edge.value
    return (dst, x) :: (← phiValues? values source rest)
  | _ :: rest => phiValues? values source rest

/-- Control goes to the block `target`, whose phis are bound at the same time. -/
def enter? (f : Function) (c : Config) (target : BlockId) : Option Config := do
  let block ← f.block? target
  let arriving ← phiValues? c.values c.block block.instructions
  return ⟨target, 0, fun v => (arriving.lookup v).or (c.values v), c.memory⟩

/-- One instruction. `declared` gives the types of the globals. -/
def execute? (P : Platform) (declared : String → Option Ty) (f : Function) (c : Config) :
    Instr → Option Progress
  | .const dst value => some (.next (c.define dst value.value))
  | .math dst op lhs rhs => do
    let a ← c.values lhs
    let b ← c.values rhs
    let ty ← a.sharedType? b
    let kind ← ty.kind?
    let w ← P.compute? op kind a.word b.word
    return .next (c.define dst ⟨ty, w⟩)
  | .compare dst op lhs rhs => do
    let a ← c.values lhs
    let b ← c.values rhs
    let ty ← a.sharedType? b
    let kind ← ty.kind?
    let holds ← P.compare? op kind a.word b.word
    return .next (c.define dst ⟨.bool, .truth holds⟩)
  | .phi .. => some (.next (c.advance c.memory))
  | .loadGlobal dst name => do
    let ty ← declared name
    return .next (c.define dst ⟨ty, c.memory.globals name⟩)
  | .storeGlobal name value => do
    let _ ← declared name
    let a ← c.values value
    return .next (c.advance (c.memory.setGlobal name a.word))
  | .new dst fields =>
    let (w, memory) := c.memory.allocate P fields.length
    some (.next ({ c with memory }.define dst ⟨.object, w⟩))
  | .loadField dst ty object field => do
    let a ← c.values object
    let w ← c.memory.field? field a.word
    return .next (c.define dst ⟨ty, w⟩)
  | .storeField object field value => do
    let a ← c.values object
    let b ← c.values value
    let memory ← c.memory.setField? field b.word a.word
    return .next (c.advance memory)
  | .jump target => do
    return .next (← c.enter? f target)
  | .branch condition thenBlock elseBlock => do
    let a ← c.values condition
    let taken ← P.compare? .notEqual .word a.word (.int 0)
    return .next (← c.enter? f (if taken then thenBlock else elseBlock))
  | .ret none => some (.returned none c.memory)
  | .ret (some value) => do
    let a ← c.values value
    return .returned (some a.word) c.memory
  | .call .. | .callNative .. => none

/-- The instruction where control is. -/
def instr? (f : Function) (c : Config) : Option Instr := do
  (← f.block? c.block).instructions[c.position]?

/-- One step of a function. -/
def step? (P : Platform) (declared : String → Option Ty) (f : Function) (c : Config) :
    Option Progress := do
  c.execute? P declared f (← c.instr? f)

/-- The start of a function: its parameters are bound to the arguments. -/
def initial (f : Function) (arguments : List Datum) (memory : Memory) : Config where
  block := ⟨0⟩
  position := 0
  values v := do return ⟨← f.parameters[v.index]?, ← arguments[v.index]?⟩
  memory

end Config

end DisBackend.Ssa
