import DisBackend.Fault
import DisBackend.Ssa.Program

/-!
# `Ssa.Builder` — constructing programs step by step

A function is built by a sequence of steps. A step that computes a value numbers it itself, so that
every value is assigned once; instructions go to the end of the current block.

## Contents

* `Builder`, `Builder.start`, `Builder.push`, `Builder.define` — a function under construction;
* `Step`, `Builder.step`, `Builder.run` — the steps, and what they do;
* `Program.declare`, `Program.build` — adding functions to a program.
-/

namespace DisBackend.Ssa

/-- A function under construction. -/
structure Builder where
  function : Function
  /-- The block that instructions are added to. -/
  current : BlockId
  /-- The number of the next new value. -/
  nextValue : Nat
  deriving Repr

namespace Builder

/-- A function with one empty block. -/
def start (name : String) (parameters : List Ty) (result : Option Ty) : Builder :=
  ⟨⟨name, parameters, result, [⟨[]⟩]⟩, ⟨0⟩, parameters.length⟩

/-- The builder with other blocks. -/
def withBlocks (b : Builder) (blocks : List Block) : Builder :=
  { b with function := { b.function with blocks } }

/-- The block with an instruction added at its end. -/
def append (i : Instr) (block : Block) : Block := ⟨block.instructions ++ [i]⟩

/-- Adds an instruction to the current block. -/
def push (b : Builder) (i : Instr) : Builder :=
  b.withBlocks (b.function.blocks.modify b.current.index (append i))

/-- Adds an instruction that computes a new value. -/
def define (b : Builder) (make : ValueId → Instr) : ValueId × Builder :=
  let dst : ValueId := ⟨b.nextValue⟩
  (dst, { b with nextValue := b.nextValue + 1 }.push (make dst))

/-! ## Edges added to a phi later -/

/-- The instructions with an edge added to the first phi that computes `phi`, if there is one. -/
def addEdge? (phi : ValueId) (edge : PhiEdge) : List Instr → Option (List Instr)
  | [] => none
  | i :: rest =>
    match i with
    | .phi dst ty incoming =>
      if dst = phi then some (.phi dst ty (incoming ++ [edge]) :: rest)
      else (addEdge? phi edge rest).map (i :: ·)
    | _ => (addEdge? phi edge rest).map (i :: ·)

/-- The blocks with an edge added to the first phi that computes `phi`, if there is one. -/
def addBlockEdge? (phi : ValueId) (edge : PhiEdge) : List Block → Option (List Block)
  | [] => none
  | block :: rest =>
    match addEdge? phi edge block.instructions with
    | some instructions => some (⟨instructions⟩ :: rest)
    | none => (addBlockEdge? phi edge rest).map (block :: ·)

end Builder

/-- One step in building a function. -/
inductive Step where
  | parameter (index : Nat)
  | createBlock
  | switchTo (block : BlockId)
  | currentBlock
  | const (value : Constant)
  | math (op : MathOp) (lhs rhs : ValueId)
  | compare (op : Comparison) (lhs rhs : ValueId)
  | phi (ty : Ty)
  | addIncoming (phi : ValueId) (edge : PhiEdge)
  | loadGlobal (global : String)
  | storeGlobal (global : String) (value : ValueId)
  | new (fields : List Ty)
  | loadField (ty : Ty) (object : ValueId) (field : Nat)
  | storeField (object : ValueId) (field : Nat) (value : ValueId)
  | call (callee : String) (arguments : List ValueId)
  | callVoid (callee : String) (arguments : List ValueId)
  | callNative (function : String) (arguments : List ValueId)
  | callNativeVoid (function : String) (arguments : List ValueId)
  | jump (target : BlockId)
  | branch (condition : ValueId) (thenBlock elseBlock : BlockId)
  | ret (value : Option ValueId)
  deriving DecidableEq, Repr

/-- What a step gives back. -/
inductive Outcome where
  | nothing
  | value (v : ValueId)
  | block (b : BlockId)
  deriving DecidableEq, Repr

namespace Builder

/-- A step that computes a new value. -/
def compute (b : Builder) (make : ValueId → Instr) : Outcome × Builder :=
  let (v, b) := b.define make
  (.value v, b)

/-- A step that only has an effect. -/
def effect (b : Builder) (i : Instr) : Outcome × Builder := (.nothing, b.push i)

/-- Performs a step. -/
def step (b : Builder) : Step → Except Fault (Outcome × Builder)
  | .parameter index =>
    if index < b.function.parameters.length then .ok (.value ⟨index⟩, b)
    else .error (.noParameter b.function.name index)
  | .createBlock =>
    .ok (.block ⟨b.function.blocks.length⟩, b.withBlocks (b.function.blocks ++ [⟨[]⟩]))
  | .switchTo block =>
    if block.index < b.function.blocks.length then .ok (.nothing, { b with current := block })
    else .error (.noBlock block)
  | .currentBlock => .ok (.block b.current, b)
  | .const value => .ok (b.compute (.const · value))
  | .math op lhs rhs => .ok (b.compute (.math · op lhs rhs))
  | .compare op lhs rhs => .ok (b.compute (.compare · op lhs rhs))
  | .phi ty => .ok (b.compute (.phi · ty []))
  | .addIncoming phi edge =>
    match addBlockEdge? phi edge b.function.blocks with
    | some blocks => .ok (.nothing, b.withBlocks blocks)
    | none => .error (.notAPhi phi)
  | .loadGlobal global => .ok (b.compute (.loadGlobal · global))
  | .storeGlobal global value => .ok (b.effect (.storeGlobal global value))
  | .new fields => .ok (b.compute (.new · fields))
  | .loadField ty object field => .ok (b.compute (.loadField · ty object field))
  | .storeField object field value => .ok (b.effect (.storeField object field value))
  | .call callee arguments => .ok (b.compute fun dst => .call (some dst) callee arguments)
  | .callVoid callee arguments => .ok (b.effect (.call none callee arguments))
  | .callNative function arguments =>
    .ok (b.compute fun dst => .callNative (some dst) function arguments)
  | .callNativeVoid function arguments => .ok (b.effect (.callNative none function arguments))
  | .jump target => .ok (b.effect (.jump target))
  | .branch condition thenBlock elseBlock => .ok (b.effect (.branch condition thenBlock elseBlock))
  | .ret value => .ok (b.effect (.ret value))

/-- What became of a sequence of steps: the outcomes of those performed, the function then, and the
fault that ended the sequence early, if any. -/
structure Run where
  outcomes : List Outcome
  builder : Builder
  fault : Option Fault

/-- Performs steps in order, up to the first fault. -/
def run (b : Builder) : List Step → Run
  | [] => ⟨[], b, none⟩
  | s :: rest =>
    match b.step s with
    | .error fault => ⟨[], b, some fault⟩
    | .ok (outcome, b) =>
      let r := b.run rest
      { r with outcomes := outcome :: r.outcomes }

end Builder

namespace Program

/-- Adds a function. -/
def add (p : Program) (f : Function) : Program := { p with functions := p.functions ++ [f] }

/-- Adds a function without a body. -/
def declare (p : Program) (name : String) (parameters : List Ty) (result : Option Ty) : Program :=
  p.add ⟨name, parameters, result, []⟩

/-- Adds a function built by steps. If a fault ends the steps early, the function is added as it is
then. -/
def build (p : Program) (name : String) (parameters : List Ty) (result : Option Ty)
    (steps : List Step) : Except Fault (Builder.Run × Program) :=
  if name = "" then .error .emptyFunctionName
  else
    let r := (Builder.start name parameters result).run steps
    .ok (r, p.add r.builder.function)

end Program
end DisBackend.Ssa
