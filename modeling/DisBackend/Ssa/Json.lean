import DisBackend.Json.Reader
import DisBackend.Json.Writer
import DisBackend.Ssa.Program

/-!
# `Ssa.Json` — programs as JSON

Programs are exchanged as JSON. An instruction is an object whose field `op` names its kind; a
constant is an object with one field, named for its type. Fields that are not known are ignored.
Lists that are empty and values that are absent may be left out, and so may the entry `main`.

## Contents

* `Program.toJson`, and the same for the parts of a program;
* `Program.ofJson?`, and the same for the parts of a program;
* `Program.render`, `Program.parse?` — to and from JSON text.
-/

namespace DisBackend.Ssa

open Json (Value Record)

/-! ## Writing -/

/-- A list of parts. -/
def listJson {α : Type} (write : α → Value) (xs : List α) : Value := .array (xs.map write)

/-- A part that may be absent. -/
def optionJson {α : Type} (write : α → Value) : Option α → Value
  | none => .null
  | some x => write x

/-- A number that counts or numbers something. -/
def natJson (n : Nat) : Value := .int n

/-- A value id. -/
def ValueId.toJson (v : ValueId) : Value := natJson v.index

/-- A block id. -/
def BlockId.toJson (b : BlockId) : Value := natJson b.index

/-- A type. -/
def Ty.toJson (ty : Ty) : Value := .string ty.name

/-- A constant. A real that is not finite has no JSON form. -/
def Constant.toJson : Constant → Value
  | .int value => .object [("int", .int value.toInt)]
  | .real value => .object [("real", if value.isFinite then .real value else .null)]
  | .bool value => .object [("bool", .bool value)]
  | .string value => .object [("string", .string value)]

/-- An edge of a phi. -/
def PhiEdge.toJson (e : PhiEdge) : Value :=
  .object [("block", e.block.toJson), ("value", e.value.toJson)]

namespace Instr

/-- The name of the kind of an instruction. -/
def opName : Instr → String
  | .const .. => "const" | .math .. => "math" | .compare .. => "compare" | .phi .. => "phi"
  | .loadGlobal .. => "load-global" | .storeGlobal .. => "store-global" | .new .. => "new"
  | .loadField .. => "load-field" | .storeField .. => "store-field" | .call .. => "call"
  | .callNative .. => "call-native" | .jump .. => "jump" | .branch .. => "branch"
  | .ret .. => "return"

/-- The fields of an instruction. -/
def fieldsJson : Instr → List (String × Value)
  | .const dst value => [("dst", dst.toJson), ("value", value.toJson)]
  | .math dst op lhs rhs =>
    [("dst", dst.toJson), ("operation", .string op.name), ("lhs", lhs.toJson), ("rhs", rhs.toJson)]
  | .compare dst op lhs rhs =>
    [("dst", dst.toJson), ("comparison", .string op.name), ("lhs", lhs.toJson), ("rhs", rhs.toJson)]
  | .phi dst ty incoming =>
    [("dst", dst.toJson), ("ty", ty.toJson), ("incoming", listJson PhiEdge.toJson incoming)]
  | .loadGlobal dst global => [("dst", dst.toJson), ("global", .string global)]
  | .storeGlobal global value => [("global", .string global), ("value", value.toJson)]
  | .new dst fields => [("dst", dst.toJson), ("fields", listJson Ty.toJson fields)]
  | .loadField dst ty object field =>
    [("dst", dst.toJson), ("ty", ty.toJson), ("object", object.toJson), ("field", natJson field)]
  | .storeField object field value =>
    [("object", object.toJson), ("field", natJson field), ("value", value.toJson)]
  | .call dst callee arguments =>
    [("dst", optionJson ValueId.toJson dst), ("callee", .string callee),
      ("arguments", listJson ValueId.toJson arguments)]
  | .callNative dst function arguments =>
    [("dst", optionJson ValueId.toJson dst), ("function", .string function),
      ("arguments", listJson ValueId.toJson arguments)]
  | .jump target => [("target", target.toJson)]
  | .branch condition thenBlock elseBlock =>
    [("condition", condition.toJson), ("then_block", thenBlock.toJson),
      ("else_block", elseBlock.toJson)]
  | .ret value => [("value", optionJson ValueId.toJson value)]

/-- An instruction. -/
def toJson (i : Instr) : Value := .object (("op", .string i.opName) :: i.fieldsJson)

end Instr

/-- A block. -/
def Block.toJson (b : Block) : Value :=
  .object [("instructions", listJson Instr.toJson b.instructions)]

/-- A function. -/
def Function.toJson (f : Function) : Value :=
  .object [("name", .string f.name), ("parameters", listJson Ty.toJson f.parameters),
    ("result", optionJson Ty.toJson f.result), ("blocks", listJson Block.toJson f.blocks)]

/-- A global. -/
def Global.toJson (g : Global) : Value :=
  .object [("name", .string g.name), ("ty", g.ty.toJson)]

/-- A program. -/
def Program.toJson (p : Program) : Value :=
  .object [("source-path", .string p.sourcePath), ("entry", .string p.entry),
    ("globals", listJson Global.toJson p.globals),
    ("functions", listJson Function.toJson p.functions)]

/-! ## Reading -/

/-- One of several named things, by its name or by an object with the name as its only field and no
content. That is `null`, and with `braces` also an empty object. -/
def named? {α : Type} (braces : Bool) (all : List α) (name : α → String) : Value → Option α
  | .string s => all.find? (name · == s)
  | .object [(s, .null)] => all.find? (name · == s)
  | .object [(s, .object [])] => if braces then all.find? (name · == s) else none
  | _ => none

/-- A value id. -/
def ValueId.ofJson? (v : Value) : Option ValueId := v.asNat?.map ValueId.mk

/-- A block id. -/
def BlockId.ofJson? (v : Value) : Option BlockId := v.asNat?.map BlockId.mk

/-- A type of a global, a parameter or a result. -/
def Ty.ofJson? : Value → Option Ty := named? false Ty.all Ty.name

/-- A type in an instruction. -/
def Ty.ofOperand? : Value → Option Ty := named? true Ty.all Ty.name

/-- An operation. -/
def MathOp.ofJson? : Value → Option MathOp := named? true MathOp.all MathOp.name

/-- A comparison. -/
def Comparison.ofJson? : Value → Option Comparison := named? true Comparison.all Comparison.name

/-- A constant. -/
def Constant.ofJson? : Value → Option Constant
  | .object [("int", v)] => v.asInt64?.map .int
  | .object [("real", v)] => v.asDouble?.map .real
  | .object [("bool", v)] => v.asBool?.map .bool
  | .object [("string", v)] => v.asString?.map .string
  | _ => none

/-- An edge of a phi. -/
def PhiEdge.ofJson? (v : Value) : Option PhiEdge := do
  let r ← v.asRecord? ["block", "value"]
  return ⟨← r.required "block" BlockId.ofJson?, ← r.required "value" ValueId.ofJson?⟩

/-- A list of value ids that may be left out. -/
def argumentsOf? (r : Record) : Option (List ValueId) :=
  r.optional "arguments" [] (Value.asList? ValueId.ofJson?)

/-- A value id that may be left out. -/
def valueOf? (r : Record) (name : String) : Option (Option ValueId) :=
  r.optional name none (Value.asOption? ValueId.ofJson?)

namespace Instr

/-- The fields of the instructions of one kind. -/
def fieldNames? : String → Option (List String)
  | "const" => some ["dst", "value"]
  | "math" => some ["dst", "operation", "lhs", "rhs"]
  | "compare" => some ["dst", "comparison", "lhs", "rhs"]
  | "phi" => some ["dst", "ty", "incoming"]
  | "load-global" => some ["dst", "global"]
  | "store-global" => some ["global", "value"]
  | "new" => some ["dst", "fields"]
  | "load-field" => some ["dst", "ty", "object", "field"]
  | "store-field" => some ["object", "field", "value"]
  | "call" => some ["dst", "callee", "arguments"]
  | "call-native" => some ["dst", "function", "arguments"]
  | "jump" => some ["target"]
  | "branch" => some ["condition", "then_block", "else_block"]
  | "return" => some ["value"]
  | _ => none

/-- An instruction of a given kind from its fields. -/
def ofRecord? (op : String) (r : Record) : Option Instr := do
  let value (name : String) := r.required name ValueId.ofJson?
  let block (name : String) := r.required name BlockId.ofJson?
  let text (name : String) := r.required name Value.asString?
  match op with
  | "const" => return .const (← value "dst") (← r.required "value" Constant.ofJson?)
  | "math" =>
    return .math (← value "dst") (← r.required "operation" MathOp.ofJson?) (← value "lhs")
      (← value "rhs")
  | "compare" =>
    return .compare (← value "dst") (← r.required "comparison" Comparison.ofJson?) (← value "lhs")
      (← value "rhs")
  | "phi" =>
    return .phi (← value "dst") (← r.required "ty" Ty.ofOperand?)
      (← r.required "incoming" (Value.asList? PhiEdge.ofJson?))
  | "load-global" => return .loadGlobal (← value "dst") (← text "global")
  | "store-global" => return .storeGlobal (← text "global") (← value "value")
  | "new" => return .new (← value "dst") (← r.required "fields" (Value.asList? Ty.ofOperand?))
  | "load-field" =>
    return .loadField (← value "dst") (← r.required "ty" Ty.ofOperand?) (← value "object")
      (← r.required "field" Value.asNat?)
  | "store-field" =>
    return .storeField (← value "object") (← r.required "field" Value.asNat?) (← value "value")
  | "call" => return .call (← valueOf? r "dst") (← text "callee") (← argumentsOf? r)
  | "call-native" => return .callNative (← valueOf? r "dst") (← text "function") (← argumentsOf? r)
  | "jump" => return .jump (← block "target")
  | "branch" => return .branch (← value "condition") (← block "then_block") (← block "else_block")
  | "return" => return .ret (← valueOf? r "value")
  | _ => none

/-- The kind of an instruction and its other fields. The kind stands anywhere in an object, once; in an
array it stands first. -/
def split? : Value → Option (String × Value)
  | .object fields =>
    match fields.partition (·.1 == "op") with
    | ([(_, .string op)], others) => some (op, .object others)
    | _ => none
  | .array (.string op :: others) => some (op, .array others)
  | _ => none

/-- An instruction. -/
def ofJson? (v : Value) : Option Instr := do
  let (op, content) ← split? v
  ofRecord? op (← content.asRecord? (← fieldNames? op))

end Instr

/-- The fields of a block. -/
def Block.fieldNames : List String := ["instructions"]

/-- A block. -/
def Block.ofJson? (v : Value) : Option Block := do
  let r ← v.asRecord? fieldNames
  return ⟨← r.required "instructions" (Value.asList? Instr.ofJson?)⟩

/-- The fields of a function. -/
def Function.fieldNames : List String := ["name", "parameters", "result", "blocks"]

/-- A function. -/
def Function.ofJson? (v : Value) : Option Function := do
  let r ← v.asRecord? fieldNames
  return {
    name := ← r.required "name" Value.asString?
    parameters := ← r.optional "parameters" [] (Value.asList? Ty.ofJson?)
    result := ← r.optional "result" none (Value.asOption? Ty.ofJson?)
    blocks := ← r.optional "blocks" [] (Value.asList? Block.ofJson?) }

/-- A global. -/
def Global.ofJson? (v : Value) : Option Global := do
  let r ← v.asRecord? ["name", "ty"]
  return ⟨← r.required "name" Value.asString?, ← r.required "ty" Ty.ofJson?⟩

/-- The fields of a program. -/
def Program.fieldNames : List String := ["source-path", "entry", "globals", "functions"]

/-- A program. -/
def Program.ofJson? (v : Value) : Option Program := do
  let r ← v.asRecord? fieldNames
  return {
    sourcePath := ← r.required "source-path" Value.asString?
    entry := ← r.optional "entry" defaultEntry Value.asString?
    globals := ← r.optional "globals" [] (Value.asList? Global.ofJson?)
    functions := ← r.optional "functions" [] (Value.asList? Function.ofJson?) }

/-! ## Text -/

/-- The JSON text of a program. -/
def Program.render (p : Program) : String := p.toJson.render

/-- The elements of the array in one field of a value. -/
def elementsOf (names : List String) (field : String) (v : Value) : List Value :=
  match (v.asRecord? names).bind (List.lookup field) with
  | some (.array elements) => elements
  | _ => []

/-- The instructions in the JSON form of a program. -/
def instructionValues (v : Value) : List Value :=
  (elementsOf Program.fieldNames "functions" v).flatMap fun f =>
    (elementsOf Function.fieldNames "blocks" f).flatMap (elementsOf Block.fieldNames "instructions")

/-- How deep the text of an instruction may nest: the text of a program may nest 127 deep, and an
instruction stands six levels below. -/
def instructionDepth : Nat := 121

/-- The program that a JSON text stands for. A field that is not known is passed over, whatever it
holds; but an instruction is read as a whole, and so must be sound. -/
def Program.parse? (text : String) : Option Program := do
  let v ← Json.parse? text
  if (instructionValues v).all (Value.sound instructionDepth) then Program.ofJson? v else none

end DisBackend.Ssa
