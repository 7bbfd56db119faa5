import DisBackend.Double.Layout
import DisBackend.Ssa.Ty
import DisBackend.Ssa.Value
import DisBackend.Text.Quoted

/-!
# `Ssa.Instr` — instructions of a program

An instruction computes at most one value. The last instruction of a block, its terminator, says
where control goes; a phi chooses a value by the block control came from.

## Contents

* `Constant`, `MathOp`, `Comparison`, `PhiEdge`, `Instr`;
* `Instr.destination?`, `Instr.isTerminator`, `Instr.successors`;
* `Instr.text` — the listing form.
-/

namespace DisBackend.Ssa

/-- A constant. -/
inductive Constant where
  | int (value : Int64)
  | real (value : Double)
  | bool (value : Bool)
  | string (value : String)
  deriving DecidableEq, Repr, Inhabited

namespace Constant

/-- The type of a constant. -/
def ty : Constant → Ty
  | .int _ => .int
  | .real _ => .real
  | .bool _ => .bool
  | .string _ => .string

/-- A constant as listings show it. -/
def text : Constant → String
  | .int value => toString value.toInt
  | .real value => value.text Double.listingLayout
  | .bool value => if value then "true" else "false"
  | .string value => Text.quoted value

end Constant

/-- An operation on two values of one type. -/
inductive MathOp where
  | add | subtract | multiply | divide | modulo | and | or | xor | leftShift | rightShift
  deriving DecidableEq, Repr, Inhabited

namespace MathOp

/-- The name of an operation. -/
def name : MathOp → String
  | .add => "add" | .subtract => "subtract" | .multiply => "multiply" | .divide => "divide"
  | .modulo => "modulo" | .and => "and" | .or => "or" | .xor => "xor"
  | .leftShift => "left-shift" | .rightShift => "right-shift"

/-- Every operation. -/
def all : List MathOp :=
  [.add, .subtract, .multiply, .divide, .modulo, .and, .or, .xor, .leftShift, .rightShift]

/-- The operands of the operation may be exchanged. -/
def isCommutative : MathOp → Bool
  | .add | .multiply | .and | .or | .xor => true
  | _ => false

end MathOp

/-- A comparison of two values of one type. -/
inductive Comparison where
  | equal | notEqual | less | lessOrEqual | greater | greaterOrEqual
  deriving DecidableEq, Repr, Inhabited

namespace Comparison

/-- The name of a comparison. -/
def name : Comparison → String
  | .equal => "equal" | .notEqual => "not-equal" | .less => "less"
  | .lessOrEqual => "less-or-equal" | .greater => "greater"
  | .greaterOrEqual => "greater-or-equal"

/-- Every comparison. -/
def all : List Comparison :=
  [.equal, .notEqual, .less, .lessOrEqual, .greater, .greaterOrEqual]

end Comparison

/-- The value a phi has when control comes from `block`. -/
structure PhiEdge where
  block : BlockId
  value : ValueId
  deriving DecidableEq, Repr, Inhabited

/-- An instruction. -/
inductive Instr where
  /-- A constant. -/
  | const (dst : ValueId) (value : Constant)
  /-- The result of an operation. -/
  | math (dst : ValueId) (op : MathOp) (lhs rhs : ValueId)
  /-- The outcome of a comparison. -/
  | compare (dst : ValueId) (op : Comparison) (lhs rhs : ValueId)
  /-- The value of the edge that control came over. Phis stand at the start of a block. -/
  | phi (dst : ValueId) (ty : Ty) (incoming : List PhiEdge)
  /-- The value of a global variable. -/
  | loadGlobal (dst : ValueId) (global : String)
  /-- Gives a global variable a value. -/
  | storeGlobal (global : String) (value : ValueId)
  /-- A new object with one word for each field. -/
  | new (dst : ValueId) (fields : List Ty)
  /-- The value of a field of an object. -/
  | loadField (dst : ValueId) (ty : Ty) (object : ValueId) (field : Nat)
  /-- Gives a field of an object a value. -/
  | storeField (object : ValueId) (field : Nat) (value : ValueId)
  /-- Calls a function of the program. -/
  | call (dst : Option ValueId) (callee : String) (arguments : List ValueId)
  /-- Calls a function of the system module. -/
  | callNative (dst : Option ValueId) (function : String) (arguments : List ValueId)
  /-- Goes to a block. -/
  | jump (target : BlockId)
  /-- Goes to one of two blocks. -/
  | branch (condition : ValueId) (thenBlock elseBlock : BlockId)
  /-- Ends the function. -/
  | ret (value : Option ValueId)
  deriving DecidableEq, Repr, Inhabited

namespace Instr

/-- The value an instruction computes. -/
def destination? : Instr → Option ValueId
  | .const dst _ | .math dst .. | .compare dst .. | .phi dst .. | .loadGlobal dst _ | .new dst _
  | .loadField dst .. => some dst
  | .call dst .. | .callNative dst .. => dst
  | .storeGlobal .. | .storeField .. | .jump _ | .branch .. | .ret _ => none

/-- The instruction ends a block. -/
def isTerminator : Instr → Bool
  | .jump _ | .branch .. | .ret _ => true
  | _ => false

/-- The instruction is a phi. -/
def isPhi : Instr → Bool
  | .phi .. => true
  | _ => false

/-- The blocks control can go to. -/
def successors : Instr → List BlockId
  | .jump target => [target]
  | .branch _ thenBlock elseBlock => [thenBlock, elseBlock]
  | _ => []

/-- The arguments of a call. -/
def argumentsText (arguments : List ValueId) : String :=
  "(" ++ ", ".intercalate (arguments.map ValueId.text) ++ ")"

/-- The edges of a phi. -/
def edgesText (incoming : List PhiEdge) : String :=
  ", ".intercalate (incoming.map fun e => s!"[{e.block.text}: {e.value.text}]")

/-- The listing form without the destination. -/
def operationText : Instr → String
  | .const _ value => s!"const {value.text}"
  | .math _ op lhs rhs => s!"{op.name} {lhs.text}, {rhs.text}"
  | .compare _ op lhs rhs => s!"compare {op.name} {lhs.text}, {rhs.text}"
  | .phi _ ty [] => s!"phi {ty.name}"
  | .phi _ ty incoming => s!"phi {ty.name} {edgesText incoming}"
  | .loadGlobal _ global => s!"load-global {global}"
  | .storeGlobal global value => s!"store-global {global}, {value.text}"
  | .new _ fields => "new \x7b" ++ ", ".intercalate (fields.map Ty.name) ++ "\x7d"
  | .loadField _ ty object field => s!"load-field {ty.name} {object.text}.{field}"
  | .storeField object field value => s!"store-field {object.text}.{field}, {value.text}"
  | .call _ callee arguments => s!"call {callee}{argumentsText arguments}"
  | .callNative _ function arguments => s!"call-native {function}{argumentsText arguments}"
  | .jump target => s!"jump {target.text}"
  | .branch condition thenBlock elseBlock =>
    s!"branch {condition.text}, {thenBlock.text}, {elseBlock.text}"
  | .ret (some value) => s!"return {value.text}"
  | .ret none => "return"

/-- The listing form. -/
def text (i : Instr) : String :=
  match i.destination? with
  | some dst => s!"{dst.text} = {i.operationText}"
  | none => i.operationText

end Instr
end DisBackend.Ssa
