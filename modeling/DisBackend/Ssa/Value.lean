/-!
# `Ssa.Value` — names of values and blocks

A value of a function is assigned once and known by its number; the parameters come first. A block
is known by its position in the function.

## Contents

* `ValueId`, `BlockId` and their text.
-/

namespace DisBackend.Ssa

/-- The number of a value in its function. -/
structure ValueId where
  index : Nat
  deriving DecidableEq, Repr, Inhabited

/-- The position of a block in its function. -/
structure BlockId where
  index : Nat
  deriving DecidableEq, Repr, Inhabited

/-- A value as listings show it. -/
def ValueId.text (v : ValueId) : String := s!"%{v.index}"

/-- A block as listings show it. -/
def BlockId.text (b : BlockId) : String := s!"bb{b.index}"

end DisBackend.Ssa
