/-!
# `Word` — the machine's numbers

The machine works on 8-byte words, addresses memory by signed 32-bit byte offsets, and writes
the numbers of a module file in a variable-length form that holds 30 bits. Offsets, addresses and
descriptor ids are kept as `Int` here; where the machine's own arithmetic is limited to 32 bits the
limit is explicit.

## Contents

* `wordBytes`, `headerBytes`, `returnSlot` — the fixed measures of a frame;
* `operandMin`, `operandMax`, `Encodable` — the numbers a module file can hold;
* `FitsInt32`, `toInt32` — the signed 32-bit range, and reading a number modulo `2 ^ 32`.
-/

namespace DisBackend

/-- Bytes in a machine word. -/
def wordBytes : Int := 8

/-- Bytes in the fixed header of a frame: five registers and three scratch words. -/
def headerBytes : Int := 64

/-- Where in a frame header the pointer to the caller's result lies. -/
def returnSlot : Int := 32

/-- The smallest number a module file can hold. -/
def operandMin : Int := -536870912

/-- The largest number a module file can hold. -/
def operandMax : Int := 536870911

/-- `n` can be written to a module file. -/
def Encodable (n : Int) : Prop := operandMin ≤ n ∧ n ≤ operandMax

instance (n : Int) : Decidable (Encodable n) :=
  inferInstanceAs (Decidable (_ ∧ _))

/-- `n` is a signed 32-bit number. -/
def FitsInt32 (n : Int) : Prop := -2147483648 ≤ n ∧ n ≤ 2147483647

instance (n : Int) : Decidable (FitsInt32 n) :=
  inferInstanceAs (Decidable (_ ∧ _))

/-- The signed 32-bit number that agrees with `n` modulo `2 ^ 32`. -/
def toInt32 (n : Int) : Int := Int.bmod n 4294967296

end DisBackend
