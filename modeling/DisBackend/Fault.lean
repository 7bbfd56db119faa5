import DisBackend.Module.Inconsistency
import DisBackend.Ssa.Value

/-!
# `Fault` — conditions under which the work is abandoned

A fault is not a verdict on the input: it says that a limit of the machine was exceeded, or that a
caller broke the rules of an operation. Errors in a program or in a module file have types of their
own.

## Contents

* `Fault`, `Fault.message`;
* `checkedAdd`, `checkedMul` — 32-bit arithmetic that faults when the result does not fit.
-/

namespace DisBackend

open Ssa (BlockId ValueId)

/-- Why the work was abandoned. -/
inductive Fault where
  -- limits of the machine
  | addOverflow
  | mulOverflow
  | operandRange (value : Int)
  | moduleDataFull (tag : String) (offset : Int)
  -- broken rules of descriptors and fragments
  | unalignedPointer (offset : Int)
  | callSiteNumber (given expected : Int)
  | noEntryFragment
  | patchOutOfRange (index : Nat) (function : String) (length : Nat)
  | patchedTwice (index : Nat) (function : String)
  | calleeNotLowered (function callee : String)
  | frameIdPatch (instruction : Instruction)
  | callAddressPatch (instruction : Instruction)
  | inconsistentModule (name : String) (cause : Inconsistency)
  -- broken rules of program construction
  | noParameter (function : String) (index : Nat)
  | noBlock (block : BlockId)
  | notAPhi (value : ValueId)
  | emptyFunctionName
  deriving DecidableEq, Repr

/-- The wording of a fault. -/
def Fault.message : Fault → String
  | .addOverflow => "attempt to add with overflow"
  | .mulOverflow => "attempt to multiply with overflow"
  | .operandRange value => s!"operand {value} cannot be encoded"
  | .moduleDataFull tag offset => s!"module data is full: cannot place `{tag}` at offset {offset}"
  | .unalignedPointer offset => s!"unaligned pointer offset {offset}"
  | .callSiteNumber given expected =>
    s!"assertion `left == right` failed\n  left: {given}\n right: {expected}"
  | .noEntryFragment => "a module needs an entry function"
  | .patchOutOfRange index function length =>
    s!"patch of instruction {index} in `{function}` points past its {length} instructions"
  | .patchedTwice index function => s!"instruction {index} of `{function}` is patched twice"
  | .calleeNotLowered function callee => s!"`{function}` calls `{callee}`, which was not lowered"
  | .frameIdPatch instruction => s!"frame id patch on `{instruction.text}`"
  | .callAddressPatch instruction => s!"call address patch on `{instruction.text}`"
  | .inconsistentModule name cause =>
    s!"assembled module `{name}` is inconsistent: {cause.message}"
  | .noParameter function index => s!"function `{function}` has no parameter {index}"
  | .noBlock block => s!"block {block.text} does not exist"
  | .notAPhi value => s!"value {value.text} is not a phi"
  | .emptyFunctionName => "a function cannot have an empty name"

/-- The sum of two 32-bit numbers, if it is one too. -/
def checkedAdd (a b : Int) : Except Fault Int :=
  if FitsInt32 (a + b) then .ok (a + b) else .error .addOverflow

/-- The product of two 32-bit numbers, if it is one too. -/
def checkedMul (a b : Int) : Except Fault Int :=
  if FitsInt32 (a * b) then .ok (a * b) else .error .mulOverflow

end DisBackend
