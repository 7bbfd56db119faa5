import DisBackend.Opcode
import DisBackend.Operand

/-!
# `Instruction` — one step of machine code

A three-operand operation computes `destination = middle op source`; without a middle operand the
destination doubles as the left-hand side.

## Contents

* `Instruction`, and `Instruction.plain`, `Instruction.unary`, `Instruction.binary`,
  `Instruction.ternary` for the numbers of operands in use;
* `Instruction.addressByte` — the addressing modes packed into a byte;
* `Instruction.branchTarget?`, `Instruction.typeId?` — the addresses and ids an instruction names;
* `Instruction.text` — the assembly form.
-/

namespace DisBackend

/-- One machine instruction. -/
structure Instruction where
  opcode : Opcode
  src : Operand
  mid : Operand
  dst : Operand
  deriving DecidableEq, Repr, Inhabited

namespace Instruction

/-- An instruction without operands. -/
def plain (opcode : Opcode) : Instruction := ⟨opcode, .absent, .absent, .absent⟩

/-- An instruction with a destination only. -/
def unary (opcode : Opcode) (dst : Operand) : Instruction := ⟨opcode, .absent, .absent, dst⟩

/-- An instruction with a source and a destination. -/
def binary (opcode : Opcode) (src dst : Operand) : Instruction := ⟨opcode, src, .absent, dst⟩

/-- An instruction with all three operands. -/
def ternary (opcode : Opcode) (src mid dst : Operand) : Instruction := ⟨opcode, src, mid, dst⟩

/-- The three operands, source first. -/
def operands (i : Instruction) : List Operand := [i.src, i.mid, i.dst]

/-- The byte after the opcode: two bits for the middle operand, then three for the source and three
for the destination. -/
def addressByte (i : Instruction) : Nat := i.mid.middleMode + 8 * i.src.mode + i.dst.mode

/-- The code address a branch goes to, if it is a number. -/
def branchTarget? (i : Instruction) : Option Int :=
  if i.opcode.isBranch then i.dst.immediate? else none

/-- The id of the type descriptor an instruction names, if it is a number. -/
def typeId? (i : Instruction) : Option Int :=
  if i.opcode.typeInSource then i.src.immediate?
  else if i.opcode.typeInMiddle then i.mid.immediate?
  else none

/-- The assembly form: the name, then the operands that are present. -/
def text (i : Instruction) : String :=
  match (i.operands.filter (! ·.isAbsent)).map Operand.text with
  | [] => i.opcode.name
  | shown => i.opcode.name ++ " " ++ ", ".intercalate shown

end Instruction
end DisBackend
