import DisBackend.Module
import DisBackend.Ssa.Ty

/-!
# `Sys` — the functions of the system module

The system module is built into the machine. A call to one of its functions must match the function's
signature and frame exactly, or the loader refuses the module.

## Contents

* `SysFunction` — how a function is called;
* `SysFunction.result?`, `SysFunction.parameterCount?`, `SysFunction.parameterIsPointer`;
* `SysFunction.all`, `SysFunction.lookup?` — the functions there are.
-/

namespace DisBackend

open Ssa (Ty)

/-- How a function of the system module is called. -/
structure SysFunction where
  name : String
  /-- A hash of the function's type. -/
  signature : UInt32
  /-- The size of its frame in bytes, or zero if that depends on the call. -/
  frameSize : Int
  /-- The pointer map of its frame. -/
  map : List UInt8
  /-- The words it stores through the result pointer. -/
  returns : List Ty
  deriving DecidableEq, Repr, Inhabited

namespace SysFunction

/-- The path under which the system module is loaded. -/
def modulePath : String := "$Sys"

/-- The type of the result, if it is a single value. -/
def result? (f : SysFunction) : Option Ty :=
  match f.returns with
  | [ty] => some ty
  | _ => none

/-- The function takes any number of arguments. -/
def isVariadic (f : SysFunction) : Bool := f.frameSize == 0

/-- The number of arguments, if it is fixed: one for each word after the frame header. -/
def parameterCount? (f : SysFunction) : Option Nat :=
  if f.isVariadic then none else some ((f.frameSize - headerBytes) / wordBytes).toNat

/-- The descriptor of the function's frame. -/
def frameDescriptor (f : SysFunction) (id : Int) : TypeDescriptor := ⟨id, f.frameSize, f.map⟩

/-- The garbage collector follows argument `index`. The offset of the argument is computed in 32 bits. -/
def parameterIsPointer (f : SysFunction) (index : Nat) : Except Fault Bool := do
  let offset ← checkedAdd headerBytes (← checkedMul (toInt32 index) wordBytes)
  return (f.frameDescriptor 0).hasPointer offset

/-- What a module that calls the function needs. -/
def toImport (f : SysFunction) : Import := ⟨f.signature, f.name⟩

/-- Prints formatted text. Every module imports it. -/
def print : SysFunction := ⟨"print", 0xac849033, 0, [], [.int]⟩

/-- The functions of the system module. -/
def all : List SysFunction := [
  print,
  ⟨"fprint", 0xf46486c8, 0, [], [.int]⟩,
  ⟨"sprint", 0x4c0624b6, 0, [], [.string]⟩,
  ⟨"fildes", 0x1478f993, 72, [], [.object]⟩,
  ⟨"write", 0x7cfef557, 88, [0x00, 0xc0], [.int]⟩,
  ⟨"read", 0x7cfef557, 88, [0x00, 0xc0], [.int]⟩,
  ⟨"open", 0x8f477f99, 80, [0x00, 0x80], [.object]⟩,
  ⟨"create", 0x54db77d9, 88, [0x00, 0x80], [.object]⟩,
  ⟨"seek", 0xaeccaddb, 88, [0x00, 0x80], [.int]⟩,
  ⟨"sleep", 0xe67bf126, 72, [], [.int]⟩,
  ⟨"millisec", 0x616977e8, 64, [], [.int]⟩,
  ⟨"bind", 0x66326d91, 88, [0x00, 0xc0], [.int]⟩,
  ⟨"chdir", 0xc6935858, 72, [0x00, 0x80], [.int]⟩,
  ⟨"remove", 0xc6935858, 72, [0x00, 0x80], [.int]⟩,
  ⟨"pipe", 0x1f2c52ea, 72, [0x00, 0x80], [.int]⟩,
  ⟨"dup", 0x6584767b, 80, [], [.int]⟩,
  ⟨"pctl", 0x05df27fb, 80, [0x00, 0x40], [.int]⟩,
  ⟨"tokenize", 0x57338f20, 80, [0x00, 0xc0], [.int, .object]⟩]

/-- The function with a given name. -/
def lookup? (name : String) : Option SysFunction := all.find? (·.name == name)

end SysFunction
end DisBackend
