import DisBackend.DataItem
import DisBackend.Handler
import DisBackend.Instruction

/-!
# `Module.Inconsistency` — parts of a module that do not fit together

A loader refuses a module whose parts contradict each other, or the module misbehaves when it runs.

## Contents

* `Inconsistency` — the ways in which the parts of a module can disagree;
* `Inconsistency.message` — their wording.
-/

namespace DisBackend

/-- A disagreement between the parts of a module. -/
inductive Inconsistency where
  | noInstructions
  | descriptorOutOfPlace (index : Nat) (id : Int)
  | dataSizeMismatch (dataSize descriptorSize : Int)
  | entryOutOfRange (pc : Int)
  | entryTypeOutOfRange (typeId : Int)
  | linkOutOfRange (name : String) (pc typeId : Int)
  | branchOutOfRange (pc : Nat) (instruction : Instruction) (target : Int)
  | missingDescriptor (pc : Nat) (instruction : Instruction) (typeId : Int)
  | indirectMiddle (pc : Nat) (instruction : Instruction)
  | operandOutOfRange (pc : Nat) (instruction : Instruction)
  | handlersWithoutFlag
  | handlerOutOfRange (index : Nat) (handler : Handler)
  | dataOutOfRange (item : DataItem)
  deriving DecidableEq, Repr

/-- An instruction as messages name it. -/
def Inconsistency.place (pc : Nat) (instruction : Instruction) : String :=
  s!"instruction {pc} (`{instruction.text}`)"

/-- The wording of an inconsistency. -/
def Inconsistency.message : Inconsistency → String
  | .noInstructions => "module has no instructions"
  | .descriptorOutOfPlace index id => s!"type descriptor at index {index} has id {id}"
  | .dataSizeMismatch dataSize descriptorSize =>
    s!"data size {dataSize} does not match module data descriptor size {descriptorSize}"
  | .entryOutOfRange pc => s!"entry pc {pc} is outside the code"
  | .entryTypeOutOfRange typeId => s!"entry type {typeId} does not name a type descriptor"
  | .linkOutOfRange name pc typeId =>
    s!"link `{name}` refers to pc {pc} or type {typeId} outside the module"
  | .branchOutOfRange pc instruction target =>
    s!"{place pc instruction} branches to {target}, outside the code"
  | .missingDescriptor pc instruction typeId =>
    s!"{place pc instruction} refers to type descriptor {typeId}, which does not exist"
  | .indirectMiddle pc instruction => s!"{place pc instruction} has an indirect middle operand"
  | .operandOutOfRange pc instruction =>
    s!"{place pc instruction} has an operand that cannot be encoded"
  | .handlersWithoutFlag => "module has exception handlers but not the HASEXCEPT flag"
  | .handlerOutOfRange index handler =>
    s!"exception handler {index} (`{handler.text}`) refers to code or a type descriptor outside "
      ++ "the module"
  | .dataOutOfRange item => s!"data item `{item.text}` lies outside the module data"

end DisBackend
