import DisBackend.Word

/-!
# `Operand` — what an instruction works on

An instruction has three operand places: source, middle and destination. Each is absent, a number,
a word of the current frame (`fp`) or of the module data (`mp`), or a word reached through a pointer
kept in one of those. The middle place has room for the direct forms only.

## Contents

* `Operand` — the six forms;
* `Operand.mode`, `Operand.middleMode` — the bits that tell the forms apart in a module file;
* `Operand.values` — the numbers that follow those bits;
* `Operand.text` — the assembly form.
-/

namespace DisBackend

/-- One operand place of an instruction. -/
inductive Operand where
  /-- Nothing. -/
  | absent
  /-- The number itself. -/
  | imm (value : Int)
  /-- The frame word at `offset`. -/
  | fp (offset : Int)
  /-- The module data word at `offset`. -/
  | mp (offset : Int)
  /-- The word `offset` bytes into what the frame word at `base` points to. -/
  | fpIndirect (base offset : Int)
  /-- The word `offset` bytes into what the module data word at `base` points to. -/
  | mpIndirect (base offset : Int)
  deriving DecidableEq, Repr, Inhabited

namespace Operand

/-- The operand place is empty. -/
def isAbsent : Operand → Bool
  | .absent => true
  | _ => false

/-- The operand goes through a pointer. -/
def isIndirect : Operand → Bool
  | .fpIndirect .. | .mpIndirect .. => true
  | _ => false

/-- The number of an immediate operand. -/
def immediate? : Operand → Option Int
  | .imm value => some value
  | _ => none

/-- The addressing mode in the source or destination place: three bits, of which the highest marks
an indirect form. -/
def mode : Operand → Nat
  | .mp _ => 0
  | .fp _ => 1
  | .imm _ => 2
  | .absent => 3
  | .mpIndirect .. => 4
  | .fpIndirect .. => 5

/-- The addressing mode in the middle place: the two highest bits of a byte. An indirect form has no
code there and reads as absent. -/
def middleMode : Operand → Nat
  | .imm _ => 64
  | .fp _ => 128
  | .mp _ => 192
  | _ => 0

/-- The numbers of an operand in the order in which they are written. -/
def values : Operand → List Int
  | .absent => []
  | .imm n | .fp n | .mp n => [n]
  | .fpIndirect base offset | .mpIndirect base offset => [base, offset]

/-- The assembly form of an operand. -/
def text : Operand → String
  | .absent => "-"
  | .imm value => s!"${value}"
  | .fp offset => s!"{offset}(fp)"
  | .mp offset => s!"{offset}(mp)"
  | .fpIndirect base offset => s!"{offset}({base}(fp))"
  | .mpIndirect base offset => s!"{offset}({base}(mp))"

end Operand
end DisBackend
