import DisBackend.Text.Numeral

/-!
# `Module.ReadError` — bytes that are not a module

## Contents

* `Part` — the parts of a module file, as errors name them;
* `ReadError`, `ReadError.message`.
-/

namespace DisBackend

/-- A part of a module file. -/
inductive Part where
  | magic | signature | runtimeFlags | stackSize | instruction | dataSize | typeDescriptor | link
  | entryPc | entryType | opcode | addressMode | middleOperand | operand
  | typeDescriptorId | typeDescriptorSize | typeDescriptorMap
  | dataItem | dataOffset | byteData | word | stringData
  | linkPc | linkType | importGroup | imported | importTerminator
  | handler | handlerExceptionOffset | handlerRange | handlerType | handlerLabels
  | exceptionPc | handlerWildcard | handlerTerminator
  deriving DecidableEq, Repr

/-- The name of a part in messages. -/
def Part.name : Part → String
  | .magic => "magic" | .signature => "signature" | .runtimeFlags => "runtime flags"
  | .stackSize => "stack size" | .instruction => "instruction" | .dataSize => "data size"
  | .typeDescriptor => "type descriptor" | .link => "link"
  | .entryPc => "entry pc" | .entryType => "entry type"
  | .opcode => "opcode" | .addressMode => "address mode"
  | .middleOperand => "middle operand" | .operand => "operand"
  | .typeDescriptorId => "type descriptor id" | .typeDescriptorSize => "type descriptor size"
  | .typeDescriptorMap => "type descriptor map"
  | .dataItem => "data item" | .dataOffset => "data offset"
  | .byteData => "byte data" | .word => "word" | .stringData => "string data"
  | .linkPc => "link pc" | .linkType => "link type"
  | .importGroup => "import group" | .imported => "import"
  | .importTerminator => "import terminator"
  | .handler => "handler" | .handlerExceptionOffset => "handler exception offset"
  | .handlerRange => "handler range" | .handlerType => "handler type"
  | .handlerLabels => "handler labels" | .exceptionPc => "exception pc"
  | .handlerWildcard => "handler wildcard" | .handlerTerminator => "handler terminator"

/-- Why bytes are not a module. Positions count bytes from the start and point to the beginning of
what could not be read. -/
inductive ReadError where
  | unexpectedEnd (part : Part) (position : Nat)
  | badMagic (value : Int)
  | unknownOpcode (opcode pc : Nat)
  | invalidAddressMode (mode pc : Nat)
  | unknownDataKind (kind : Nat)
  | negativeCount (part : Part) (count : Int)
  | unterminatedString (position : Nat)
  | invalidUtf8 (position : Nat)
  deriving DecidableEq, Repr

/-- The wording of an error. -/
def ReadError.message : ReadError → String
  | .unexpectedEnd part position =>
    s!"unexpected end of input while reading {part.name} at byte {position}"
  | .badMagic value => s!"bad magic number {value}"
  | .unknownOpcode opcode pc => s!"unknown opcode {opcode} at instruction {pc}"
  | .invalidAddressMode mode pc =>
    let digits := Text.padLeft 2 '0' (Text.hexDigits mode)
    s!"invalid addressing mode 0x{digits} at instruction {pc}"
  | .unknownDataKind kind => s!"unknown data item kind {kind}"
  | .negativeCount part count => s!"negative {part.name} count {count}"
  | .unterminatedString position => s!"string at byte {position} is not terminated"
  | .invalidUtf8 position => s!"string at byte {position} is not valid UTF-8"

end DisBackend
