import DisBackend.Module
import DisBackend.Operand.Codec

/-!
# `Module.Writer` — a module as a file

A module file is a sequence of numbers, single bytes, 32-bit words and texts that end in a zero byte.
Each part of a module is a list of such chunks. A number that does not fit stops the writing, and the
first such number in the file is the one that is reported.

## Contents

* `joinChunks` — chunks put one after the other;
* `wordChunk`, `textChunk`, `countChunk` — the simple chunks;
* `Instruction.encode`, `TypeDescriptor.encode`, `DataItem.encode`, `Link.encode`, `Import.encode`,
  `Handler.encode` — the parts;
* `Module.encode` — the file.
-/

namespace DisBackend

/-- A piece of a file, unless it holds a number that does not fit. -/
abbrev Chunk := Except Fault Bytes

/-- Chunks one after the other. -/
def joinChunks : List Chunk → Chunk
  | [] => .ok []
  | chunk :: rest => do
    let front ← chunk
    let back ← joinChunks rest
    return front ++ back

/-- The bytes of a 32-bit word, the highest first. -/
def wordBytesOf (word : UInt32) : Bytes :=
  [byteOf 3 word.toNat, byteOf 2 word.toNat, byteOf 1 word.toNat, byteOf 0 word.toNat]

/-- The bytes of a 64-bit word, the highest first. -/
def longBytesOf (word : UInt64) : Bytes :=
  [byteOf 7 word.toNat, byteOf 6 word.toNat, byteOf 5 word.toNat, byteOf 4 word.toNat,
    byteOf 3 word.toNat, byteOf 2 word.toNat, byteOf 1 word.toNat, byteOf 0 word.toNat]

/-- The bytes of a text in UTF-8. -/
def textBytes (s : String) : Bytes := s.toUTF8.data.toList

/-- A 32-bit word. -/
def wordChunk (word : UInt32) : Chunk := .ok (wordBytesOf word)

/-- A text and the zero byte that ends it. -/
def textChunk (s : String) : Chunk := .ok (textBytes s ++ [0])

/-- The length of a list, as the 32-bit number the machine keeps it in. -/
def countChunk (length : Nat) : Chunk := encodeOperand (toInt32 length)

/-- An instruction: opcode, addressing modes, then the numbers of the middle operand, the source and
the destination. An indirect middle operand has no mode and its numbers are left out. -/
def Instruction.encode (i : Instruction) : Chunk :=
  let middle := if i.mid.middleMode = 0 then [] else i.mid.values
  joinChunks (.ok [i.opcode.toByte, UInt8.ofNat i.addressByte]
    :: (middle ++ i.src.values ++ i.dst.values).map encodeOperand)

/-- A descriptor: id, size, and the map after its length. -/
def TypeDescriptor.encode (d : TypeDescriptor) : Chunk :=
  joinChunks [encodeOperand d.id, encodeOperand d.size, countChunk d.map.length, .ok d.map]

/-- The values of a data item. -/
def DataItem.payload : DataItem → Bytes
  | .bytes _ values => values
  | .words _ values => values.flatMap wordBytesOf
  | .string _ value => textBytes value
  | .reals _ values => values.flatMap fun v => longBytesOf v.bits
  | .longs _ values => values.flatMap fun v => longBytesOf v.toUInt64
  | .array _ typeId length => wordBytesOf typeId.toUInt32 ++ wordBytesOf length.toUInt32
  | .index o element => wordBytesOf (Int32.ofInt o).toUInt32 ++ wordBytesOf element.toUInt32
  | .pop => []

/-- The first byte of a data item holds its kind and its count, if that lies between 1 and 15. Any
other count follows as a number. -/
def DataItem.header (item : DataItem) : Chunk :=
  if 0 < item.count ∧ item.count < 16 then
    .ok [UInt8.ofNat (16 * item.kind.code + item.count.toNat)]
  else joinChunks [.ok [UInt8.ofNat (16 * item.kind.code)], encodeOperand item.count]

/-- A data item: header, offset, values. -/
def DataItem.encode (item : DataItem) : Chunk :=
  joinChunks [item.header, encodeOperand item.offset, .ok item.payload]

/-- A link: address, descriptor, signature, name. -/
def Link.encode (l : Link) : Chunk :=
  joinChunks [encodeOperand l.pc, encodeOperand l.typeId, wordChunk l.signature, textChunk l.name]

/-- An import: signature, name. -/
def Import.encode (i : Import) : Chunk := joinChunks [wordChunk i.signature, textChunk i.name]

/-- A group of imports after their number. -/
def encodeImportGroup (group : List Import) : Chunk :=
  joinChunks (countChunk group.length :: group.map Import.encode)

/-- A case of a handler: name, address. -/
def ExceptionCase.encode (c : ExceptionCase) : Chunk :=
  joinChunks [textChunk c.name, encodeOperand c.pc]

/-- A handler. -/
def Handler.encode (h : Handler) : Chunk :=
  joinChunks ([encodeOperand h.exceptionOffset, encodeOperand h.pc1, encodeOperand h.pc2,
      encodeOperand h.typeId, encodeOperand h.packedLabels]
    ++ h.cases.map ExceptionCase.encode ++ [encodeOperand h.wildcardPc])

namespace Module

/-- The nine numbers at the start of a file. -/
def headerChunks (m : Module) : List Chunk :=
  [encodeOperand m.magic, encodeOperand m.flags.toInt, encodeOperand m.stackSize,
    countChunk m.code.length, encodeOperand m.dataSize, countChunk m.types.length,
    countChunk m.links.length, encodeOperand m.entryPc, encodeOperand m.entryType]

/-- The import table, if the flags ask for one. -/
def importChunks (m : Module) : List Chunk :=
  if m.flags.contains Flags.imports then
    countChunk m.imports.length :: m.imports.map encodeImportGroup ++ [encodeOperand 0]
  else []

/-- The handler table, if the flags ask for one. -/
def handlerChunks (m : Module) : List Chunk :=
  if m.flags.contains Flags.handlers then
    countChunk m.handlers.length :: m.handlers.map Handler.encode ++ [encodeOperand 0]
  else []

/-- The path of the source, if there is one. -/
def sourceChunks (m : Module) : List Chunk :=
  if m.sourcePath = "" then [] else [textChunk m.sourcePath]

/-- The file of a module. -/
def encode (m : Module) : Chunk :=
  joinChunks (m.headerChunks
    ++ m.code.map Instruction.encode
    ++ m.types.map TypeDescriptor.encode
    ++ m.data.map DataItem.encode ++ [.ok [0]]
    ++ [textChunk m.name]
    ++ m.links.map Link.encode
    ++ m.importChunks ++ m.handlerChunks ++ m.sourceChunks)

end Module
end DisBackend
