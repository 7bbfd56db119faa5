import DisBackend.Fault
import DisBackend.Ssa.Instr

/-!
# `Lowering.Error` — programs that cannot be compiled

## Contents

* `Use` — where a value of a certain type is expected;
* `LowerError`, `LowerError.message` — what can be wrong with a function;
* `CompileError`, `CompileError.message` — what can be wrong with a program;
* `Stop`, `CompileStop` — an error or a fault.
-/

namespace DisBackend

open Ssa (BlockId Comparison MathOp Ty ValueId)

/-- A place that expects a value of a certain type. -/
inductive Use where
  | math (op : MathOp)
  | compare (op : Comparison)
  | branchCondition
  | argument (index : Nat) (callee : String)
  | global (name : String)
  | fieldAccess (object : ValueId)
  | field (field : Nat) (object : ValueId)
  | phi (value : ValueId)
  | returnValue
  deriving DecidableEq, Repr

/-- A place as messages name it. -/
def Use.text : Use → String
  | .math op => op.name
  | .compare op => s!"compare {op.name}"
  | .branchCondition => "branch condition"
  | .argument index callee => s!"argument {index} of `{callee}`"
  | .global name => s!"global `{name}`"
  | .fieldAccess object => s!"field access on {object.text}"
  | .field index object => s!"field {index} of {object.text}"
  | .phi value => s!"phi {value.text}"
  | .returnValue => "return value"

/-- Why a function cannot be compiled. -/
inductive LowerError where
  | emptyBody
  | unterminatedBlock (block : BlockId)
  | terminatorNotLast (block : BlockId)
  | unknownBlock (block : BlockId)
  | undefinedValue (value : ValueId)
  | redefinition (value : ValueId)
  | unknownFunction (name : String)
  | functionWithoutBody (name : String)
  | unknownNative (name : String)
  | unknownGlobal (name : String)
  | noResult (name : String)
  | argumentCount (callee : String) (expected found : Nat)
  | typeMismatch (place : Use) (expected found : Ty)
  | nativeArgument (function : String) (index : Nat) (pointer : Bool)
  | unsupportedOperation (operation : Use) (ty : Ty)
  | fieldOutOfRange (object : ValueId) (field : Nat)
  | phiNotAtBlockStart (phi : ValueId)
  | missingPhiEdge (phi : ValueId) (block : BlockId)
  | missingReturnValue (ty : Ty)
  | unexpectedReturnValue
  deriving DecidableEq, Repr

/-- The wording of an error. -/
def LowerError.message : LowerError → String
  | .emptyBody => "function has no body"
  | .unterminatedBlock block => s!"block {block.text} does not end in a terminator"
  | .terminatorNotLast block => s!"block {block.text} continues after its terminator"
  | .unknownBlock block => s!"block {block.text} does not exist"
  | .undefinedValue value => s!"value {value.text} is used but never defined"
  | .redefinition value => s!"value {value.text} is defined more than once"
  | .unknownFunction name => s!"call to unknown function `{name}`"
  | .functionWithoutBody name => s!"function `{name}` is only declared and cannot be called"
  | .unknownNative name => s!"`{name}` is not a function of the Sys module"
  | .unknownGlobal name => s!"unknown global `{name}`"
  | .noResult name => s!"`{name}` does not return a value"
  | .argumentCount callee expected found =>
    s!"`{callee}` expects {expected} arguments, but {found} were given"
  | .typeMismatch place expected found =>
    s!"{place.text} expects a value of type {expected.name}, but {found.name} was given"
  | .nativeArgument function index pointer =>
    s!"argument {index} of `{function}` must be "
      ++ (if pointer then "a string or an object" else "an int, a real or a bool")
  | .unsupportedOperation operation ty =>
    s!"{operation.text} is not supported on values of type {ty.name}"
  | .fieldOutOfRange object field => s!"object {object.text} has no field {field}"
  | .phiNotAtBlockStart phi => s!"phi {phi.text} is not at the start of its block"
  | .missingPhiEdge phi block => s!"phi {phi.text} has no incoming value for {block.text}"
  | .missingReturnValue ty => s!"function must return a value of type {ty.name}"
  | .unexpectedReturnValue => "function does not return a value"

/-- Why the lowering of a function stopped. -/
inductive Stop where
  | error (cause : LowerError)
  | fault (cause : Fault)
  deriving DecidableEq, Repr

/-- Why a program cannot be compiled. -/
inductive CompileError where
  | missingEntry (name : String)
  | lowering (function : String) (cause : LowerError)
  deriving DecidableEq, Repr

/-- The wording of an error. -/
def CompileError.message : CompileError → String
  | .missingEntry name => s!"entry function `{name}` is not defined"
  | .lowering function cause => s!"cannot lower function `{function}`: {cause.message}"

/-- Why a compilation stopped. -/
inductive CompileStop where
  | error (cause : CompileError)
  | fault (cause : Fault)
  deriving DecidableEq, Repr

end DisBackend
