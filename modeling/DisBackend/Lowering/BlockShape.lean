import DisBackend.Lowering.Error
import DisBackend.Ssa.Program

/-!
# `Lowering.BlockShape` — blocks that control can go through

A block ends in a terminator and holds no other, its phis come first, and the blocks it leads to exist.
The blocks are checked in order, and within a block these conditions in the order given.

## Contents

* `misplacedPhi?` — a phi after another instruction;
* `Block.fault?`, `Function.shapeFault?` — the first violation.
-/

namespace DisBackend.Ssa

/-- The first phi after an instruction that is not one. -/
def misplacedPhi? (instructions : List Instr) : Option ValueId :=
  ((instructions.dropWhile Instr.isPhi).find? Instr.isPhi).bind Instr.destination?

/-- What is wrong with the shape of a block, in a function of `count` blocks. -/
def Block.fault? (count : Nat) (id : BlockId) (b : Block) : Option LowerError :=
  match b.instructions.getLast? with
  | none => some (.unterminatedBlock id)
  | some last =>
    if !last.isTerminator then some (.unterminatedBlock id)
    else if b.instructions.dropLast.any Instr.isTerminator then some (.terminatorNotLast id)
    else
      match misplacedPhi? b.instructions with
      | some phi => some (.phiNotAtBlockStart phi)
      | none => (last.successors.find? (count ≤ ·.index)).map .unknownBlock

/-- What is wrong with the shape of a function's blocks. -/
def Function.shapeFault? (f : Function) : Option LowerError :=
  if f.isDeclaration then some .emptyBody
  else f.blocks.zipIdx.findSome? fun (b, index) => b.fault? f.blocks.length ⟨index⟩

end DisBackend.Ssa
