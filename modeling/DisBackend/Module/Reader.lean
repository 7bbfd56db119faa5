import DisBackend.Module
import DisBackend.Module.ReadError
import DisBackend.Operand.Codec

/-!
# `Module.Reader` — a module from its file

A reader takes what it needs from the front of the bytes that are left. It accepts more than the
writer produces: numbers in a longer form than needed, a count next to a kind that has none, section
ends other than zero, and anything after the source path. A signed module's signature is skipped.

## Contents

* `Cursor`, `Reader` — the bytes that are left, and a computation that takes from them;
* `readBytes`, `readOperand`, `readCount`, `readWord`, `readText` — the simple readers;
* `readList`, `readItems` — repetition by count and up to an end mark;
* `Instruction.read`, `TypeDescriptor.read`, `DataItem.read?`, `Link.read`, `Import.read`,
  `Handler.read` — the parts;
* `Module.decode` — the whole.
-/

namespace DisBackend

/-- The bytes that are left, and how many were taken. -/
structure Cursor where
  position : Nat
  rest : Bytes

/-- A computation that takes bytes from the front, or finds an error. -/
abbrev Reader := StateT Cursor (Except ReadError)

/-! ## Simple readers -/

/-- The first `n` elements and the others, if there are that many. -/
def splitFront? {α : Type} : Nat → List α → Option (List α × List α)
  | 0, xs => some ([], xs)
  | _ + 1, [] => none
  | n + 1, x :: xs => (splitFront? n xs).map fun (front, back) => (x :: front, back)

/-- The next `n` bytes. -/
def readBytes (n : Nat) (part : Part) : Reader Bytes := fun c =>
  match splitFront? n c.rest with
  | some (front, back) => .ok (front, ⟨c.position + n, back⟩)
  | none => .error (.unexpectedEnd part c.position)

/-- The next byte. -/
def readByte (part : Part) : Reader Nat := fun c =>
  match c.rest with
  | byte :: back => .ok (byte.toNat, ⟨c.position + 1, back⟩)
  | [] => .error (.unexpectedEnd part c.position)

/-- The next number. -/
def readOperand (part : Part) : Reader Int := fun c =>
  match decodeOperand c.rest with
  | some (value, length) => .ok (value, ⟨c.position + length, c.rest.drop length⟩)
  | none => .error (.unexpectedEnd part c.position)

/-- The next number, which counts something. -/
def readCount (part : Part) : Reader Nat := do
  let count ← readOperand part
  if 0 ≤ count then return count.toNat else throw (.negativeCount part count)

/-- The number that bytes stand for, the highest byte first. -/
def numberOf (bytes : Bytes) : Nat := bytes.foldl (fun n byte => 256 * n + byte.toNat) 0

/-- The next 32-bit word. -/
def readWord : Reader UInt32 := return UInt32.ofNat (numberOf (← readBytes 4 .word))

/-- The next 64-bit word: two words of 32 bits. -/
def readLong : Reader UInt64 := do
  let high ← readWord
  let low ← readWord
  return UInt64.ofNat (high.toNat * 4294967296 + low.toNat)

/-- The text with the given UTF-8 bytes, found at `position`. -/
def textOf (position : Nat) (bytes : Bytes) : Except ReadError String :=
  match String.fromUTF8? ⟨bytes.toArray⟩ with
  | some s => .ok s
  | none => .error (.invalidUtf8 position)

/-- The next text, up to a zero byte. -/
def readText : Reader String := fun c => do
  match c.rest.span (· ≠ 0) with
  | (_, []) => throw (.unterminatedString c.position)
  | (front, _ :: back) =>
    let s ← textOf c.position front
    return (s, ⟨c.position + front.length + 1, back⟩)

/-- `count` times what `read` reads; `read` is told the position in the list, from `index` on. -/
def readListFrom {α : Type} (read : Nat → Reader α) : (count index : Nat) → Reader (List α)
  | 0, _ => return []
  | count + 1, index => do
    let x ← read index
    let xs ← readListFrom read count (index + 1)
    return x :: xs

/-- `count` times what `read` reads. -/
def readList {α : Type} (count : Nat) (read : Reader α) : Reader (List α) :=
  readListFrom (fun _ => read) count 0

/-! ## Parts of a module -/

/-- A source or destination operand in the given mode. -/
def Operand.read (mode pc : Nat) : Reader Operand := do
  match mode with
  | 0 => return .mp (← readOperand .operand)
  | 1 => return .fp (← readOperand .operand)
  | 2 => return .imm (← readOperand .operand)
  | 3 => return .absent
  | 4 =>
    let base ← readOperand .operand
    return .mpIndirect base (← readOperand .operand)
  | 5 =>
    let base ← readOperand .operand
    return .fpIndirect base (← readOperand .operand)
  | _ => throw (.invalidAddressMode mode pc)

/-- A middle operand; `mode` is the two highest bits of the address byte. -/
def Operand.readMiddle (mode : Nat) : Reader Operand := do
  match mode with
  | 0 => return .absent
  | 1 => return .imm (← readOperand .middleOperand)
  | 2 => return .fp (← readOperand .middleOperand)
  | _ => return .mp (← readOperand .middleOperand)

/-- The instruction at `pc`. -/
def Instruction.read (pc : Nat) : Reader Instruction := do
  let code ← readByte .opcode
  match Opcode.ofByte? (UInt8.ofNat code) with
  | none => throw (.unknownOpcode code pc)
  | some opcode =>
    let address ← readByte .addressMode
    let mid ← Operand.readMiddle (address / 64)
    let src ← Operand.read (address / 8 % 8) pc
    let dst ← Operand.read (address % 8) pc
    return ⟨opcode, src, mid, dst⟩

/-- A descriptor. -/
def TypeDescriptor.read : Reader TypeDescriptor := do
  let id ← readOperand .typeDescriptorId
  let size ← readOperand .typeDescriptorSize
  let length ← readCount .typeDescriptorMap
  return ⟨id, size, ← readBytes length .typeDescriptorMap⟩

/-- The values of a data item. An `index` item repeats its offset among its values, and the offset
there is the one that counts. -/
def DataItem.readPayload (kind : DataKind) (count : Nat) (offset : Int) : Reader DataItem := do
  match kind with
  | .bytes => return .bytes offset (← readBytes count .byteData)
  | .words => return .words offset (← readList count readWord)
  | .string =>
    let position := (← get).position
    let bytes ← readBytes count .stringData
    return .string offset (← textOf position bytes)
  | .reals => return .reals offset (← readList count (return ⟨← readLong⟩))
  | .longs => return .longs offset (← readList count (return (← readLong).toInt64))
  | .array =>
    let typeId ← readWord
    return .array offset typeId.toInt32 (← readWord).toInt32
  | .index =>
    let offset ← readWord
    return .index offset.toInt32.toInt (← readWord).toInt32
  | .pop => return .pop

/-- A data item, or none at the end of the data section. -/
def DataItem.read? : Reader (Option DataItem) := do
  let header ← readByte .dataItem
  if header = 0 then return none
  match DataKind.ofCode? (header / 16) with
  | none => throw (.unknownDataKind (header / 16))
  | some kind =>
    let count ← if header % 16 = 0 then readCount .dataItem else pure (header % 16)
    let offset ← readOperand .dataOffset
    return some (← DataItem.readPayload kind count offset)

/-- Data items up to the end of the section, at most `fuel` of them. -/
def readItems : Nat → Reader (List DataItem)
  | 0 => do throw (.unexpectedEnd .dataItem (← get).position)
  | fuel + 1 => do
    match ← DataItem.read? with
    | none => return []
    | some item => return item :: (← readItems fuel)

/-- The data section. An item takes at least one byte, so that there are no more items than bytes. -/
def readData : Reader (List DataItem) := do readItems ((← get).rest.length + 1)

/-- A link. -/
def Link.read : Reader Link := do
  let pc ← readOperand .linkPc
  let typeId ← readOperand .linkType
  let signature ← readWord
  return ⟨pc, typeId, signature, ← readText⟩

/-- An import. -/
def Import.read : Reader Import := do
  let signature ← readWord
  return ⟨signature, ← readText⟩

/-- A group of imports. -/
def readImportGroup : Reader (List Import) := do
  let count ← readCount .imported
  readList count Import.read

/-- A case of a handler. -/
def ExceptionCase.read : Reader ExceptionCase := do
  let name ← readText
  return ⟨name, ← readOperand .exceptionPc⟩

/-- A handler. The low half of the labels counts the cases, the high half is the scope. -/
def Handler.read : Reader Handler := do
  let exceptionOffset ← readOperand .handlerExceptionOffset
  let pc1 ← readOperand .handlerRange
  let pc2 ← readOperand .handlerRange
  let typeId ← readOperand .handlerType
  let labels ← readOperand .handlerLabels
  let cases ← readList (labels % 65536).toNat ExceptionCase.read
  let wildcardPc ← readOperand .handlerWildcard
  return ⟨exceptionOffset, pc1, pc2, typeId, labels / 65536, cases, wildcardPc⟩

/-! ## The whole -/

namespace Module

/-- The magic number; the signature of a signed module is skipped. -/
def readMagic : Reader Int := do
  let magic ← readOperand .magic
  if magic = unsignedMagic then return magic
  else if magic = signedMagic then
    let length ← readCount .signature
    let _ ← readBytes length .signature
    return magic
  else throw (.badMagic magic)

/-- The import table, if the flags announce one. -/
def readImports (flags : Flags) : Reader (List (List Import)) := do
  if flags.contains Flags.imports then
    let count ← readCount .importGroup
    let groups ← readList count readImportGroup
    let _ ← readOperand .importTerminator
    return groups
  else return []

/-- The handler table, if the flags announce one. -/
def readHandlers (flags : Flags) : Reader (List Handler) := do
  if flags.contains Flags.handlers then
    let count ← readCount .handler
    let handlers ← readList count Handler.read
    let _ ← readOperand .handlerTerminator
    return handlers
  else return []

/-- The source path, if there are bytes left. -/
def readSourcePath : Reader String := do
  if (← get).rest = [] then return "" else readText

/-- A module. -/
def read : Reader Module := do
  let magic ← readMagic
  let flags := Flags.ofInt (← readOperand .runtimeFlags)
  let stackSize ← readOperand .stackSize
  let codeLength ← readCount .instruction
  let dataSize ← readOperand .dataSize
  let typeCount ← readCount .typeDescriptor
  let linkCount ← readCount .link
  let entryPc ← readOperand .entryPc
  let entryType ← readOperand .entryType
  let code ← readListFrom Instruction.read codeLength 0
  let types ← readList typeCount TypeDescriptor.read
  let data ← readData
  let name ← readText
  let links ← readList linkCount Link.read
  let imports ← readImports flags
  let handlers ← readHandlers flags
  let sourcePath ← readSourcePath
  return { name, magic, flags, stackSize, code, types, dataSize, data, entryPc, entryType, links,
           imports, handlers, sourcePath }

/-- The module in a file. -/
def decode (bytes : Bytes) : Except ReadError Module := (read.run' ⟨0, bytes⟩)

end Module
end DisBackend
