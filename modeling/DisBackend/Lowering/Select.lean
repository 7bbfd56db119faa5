import DisBackend.Opcode
import DisBackend.Ssa.Instr

/-!
# `Lowering.Select` — operations of the machine for operations of a program

## Contents

* `moveOpcode` — copying a value of a given type;
* `mathOpcode?` — computing with values of a given type;
* `compareOpcode?` — branching on values of a given type.
-/

namespace DisBackend

open Ssa (Comparison MathOp Ty)

/-- The operation that copies a value of type `ty`. -/
def moveOpcode : Ty → Opcode
  | .real => .movf
  | .string | .object => .movp
  | .int | .bool => .movw

/-- The operation on words. -/
def wordMath : MathOp → Opcode
  | .add => .addw | .subtract => .subw | .multiply => .mulw | .divide => .divw | .modulo => .modw
  | .and => .andw | .or => .orw | .xor => .xorw | .leftShift => .shlw | .rightShift => .shrw

/-- The operation on reals, if there is one. -/
def realMath? : MathOp → Option Opcode
  | .add => some .addf | .subtract => some .subf | .multiply => some .mulf
  | .divide => some .divf
  | _ => none

/-- The operation on values of type `ty`, if there is one. Strings can be joined. -/
def mathOpcode? (op : MathOp) : Ty → Option Opcode
  | .int => some (wordMath op)
  | .real => realMath? op
  | .string => if op = .add then some .addc else none
  | .bool | .object => none

/-- The branch on a comparison of words. -/
def wordCompare : Comparison → Opcode
  | .equal => .beqw | .notEqual => .bnew | .less => .bltw
  | .lessOrEqual => .blew | .greater => .bgtw | .greaterOrEqual => .bgew

/-- The branch on a comparison of reals. -/
def realCompare : Comparison → Opcode
  | .equal => .beqf | .notEqual => .bnef | .less => .bltf
  | .lessOrEqual => .blef | .greater => .bgtf | .greaterOrEqual => .bgef

/-- The branch on a comparison of strings. -/
def stringCompare : Comparison → Opcode
  | .equal => .beqc | .notEqual => .bnec | .less => .bltc
  | .lessOrEqual => .blec | .greater => .bgtc | .greaterOrEqual => .bgec

/-- The branch on a comparison of values of type `ty`. Objects cannot be compared. -/
def compareOpcode? (op : Comparison) : Ty → Option Opcode
  | .int | .bool => some (wordCompare op)
  | .real => some (realCompare op)
  | .string => some (stringCompare op)
  | .object => none

end DisBackend
