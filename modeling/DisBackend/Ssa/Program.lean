import DisBackend.Ssa.Instr

/-!
# `Ssa.Program` — programs in single-assignment form

## Contents

* `Block`, `Function`, `Global`, `Program`;
* `Function.parameterValues`, `Function.instructions`, `Function.stringLiterals`,
  `Function.nativeCalls` — what a function holds;
* `Program.function?`, `Program.global?` — look-up by name;
* `Function.text`, `Program.text` — the listing form.
-/

namespace DisBackend.Ssa

/-- A sequence of instructions that is entered at its start only. -/
structure Block where
  instructions : List Instr
  deriving DecidableEq, Repr, Inhabited

/-- The instruction that ends a block, if it is one that may. -/
def Block.terminator? (b : Block) : Option Instr := b.instructions.getLast?.filter Instr.isTerminator

/-- A function. Control enters at the first block; without blocks a function is only declared. -/
structure Function where
  name : String
  parameters : List Ty
  result : Option Ty
  blocks : List Block
  deriving DecidableEq, Repr, Inhabited

namespace Function

/-- The function has no body. -/
def isDeclaration (f : Function) : Bool := f.blocks.isEmpty

/-- The block with a given id. -/
def block? (f : Function) (b : BlockId) : Option Block := f.blocks[b.index]?

/-- The parameters as values, with their types. -/
def parameterValues (f : Function) : List (ValueId × Ty) :=
  f.parameters.mapIdx fun index ty => (⟨index⟩, ty)

/-- All instructions, block after block. -/
def instructions (f : Function) : List Instr := f.blocks.flatMap Block.instructions

/-- The string constants in order of appearance, repeated ones included. -/
def stringLiterals (f : Function) : List String :=
  f.instructions.filterMap fun
    | .const _ (.string value) => some value
    | _ => none

/-- The names of the system functions called, in order of appearance, repeated ones included. -/
def nativeCalls (f : Function) : List String :=
  f.instructions.filterMap fun
    | .callNative _ function _ => some function
    | _ => none

/-- The parameters as listings show them. -/
def parameterTexts (f : Function) : List String :=
  f.parameterValues.map fun (v, ty) => s!"{v.text}: {ty.name}"

/-- The lines of a block after the one before it. -/
def blockText (index : Nat) (b : Block) : String :=
  s!"\n{BlockId.text ⟨index⟩}:" ++ String.join (b.instructions.map fun i => "\n    " ++ i.text)

/-- The listing of a function. -/
def text (f : Function) : String :=
  let parameters := ", ".intercalate f.parameterTexts
  let result := match f.result with
    | some ty => s!" -> {ty.name}"
    | none => ""
  s!"function {f.name}({parameters}){result}" ++ String.join (f.blocks.mapIdx blockText) ++ "\n"

end Function

/-- A global variable. -/
structure Global where
  name : String
  ty : Ty
  deriving DecidableEq, Repr, Inhabited

/-- The entry function of a program that names no other. -/
def defaultEntry : String := "main"

/-- A program, which is compiled into one module. -/
structure Program where
  /-- Where the program came from; the module takes its name from it. -/
  sourcePath : String
  /-- The function the module starts with. -/
  entry : String := defaultEntry
  globals : List Global := []
  functions : List Function := []
  deriving DecidableEq, Repr, Inhabited

namespace Program

/-- The function with a given name: the first one with a body, or else the first declaration. -/
def function? (p : Program) (name : String) : Option Function :=
  let named := p.functions.filter (·.name == name)
  (named.find? (! ·.isDeclaration)).or named.head?

/-- The first global with a given name. -/
def global? (p : Program) (name : String) : Option Global := p.globals.find? (·.name == name)

/-- The listing of a program. -/
def text (p : Program) : String :=
  let noun := if p.functions.length = 1 then "function" else "functions"
  s!"program {p.sourcePath} with {p.functions.length} {noun}"
    ++ String.join (p.globals.map fun g => s!"\nglobal {g.name}: {g.ty.name}")
    ++ String.join (p.functions.map fun f => "\n" ++ f.text)

end Program
end DisBackend.Ssa
