/-!
# `Double` — 64-bit binary floating point

A real constant is kept as its bit pattern, so that two constants are equal exactly when they are
stored alike: the two zeros differ, and a value that is not a number equals itself. The numeric
reading is derived: a finite value is `± m * 2 ^ q` for natural `m` and integer `q`.

## Contents

* `Double`, `Double.isNegative`, `Double.isNaN`, `Double.isInfinite`, `Double.isFinite`;
* `Double.mantissa`, `Double.exponent` — the numbers `m` and `q`;
* `Double.numericEq` — equality of values, as arithmetic sees it;
* `Double.ofRatio` — the nearest double of a quotient of natural numbers;
* `Double.times`, `Double.dividedBy` — rounded product and quotient of non-negative values.
-/

namespace DisBackend

/-- A 64-bit floating-point number, by its bit pattern. -/
structure Double where
  bits : UInt64
  deriving DecidableEq, Repr, Inhabited

namespace Double

/-- The sign bit is set. -/
def isNegative (d : Double) : Bool := d.bits.toNat >>> 63 == 1

/-- The eleven exponent bits. -/
def exponentBits (d : Double) : Nat := (d.bits.toNat >>> 52) % 2048

/-- The fifty-two fraction bits. -/
def fractionBits (d : Double) : Nat := d.bits.toNat % (1 <<< 52)

/-- Not a number. -/
def isNaN (d : Double) : Bool := d.exponentBits == 2047 && d.fractionBits != 0

/-- One of the two infinities. -/
def isInfinite (d : Double) : Bool := d.exponentBits == 2047 && d.fractionBits == 0

/-- Neither infinite nor not a number. -/
def isFinite (d : Double) : Bool := d.exponentBits != 2047

/-- One of the two zeros. -/
def isZero (d : Double) : Bool := d.exponentBits == 0 && d.fractionBits == 0

/-- The `m` of a finite value `± m * 2 ^ q`. -/
def mantissa (d : Double) : Nat :=
  if d.exponentBits = 0 then d.fractionBits else (1 <<< 52) + d.fractionBits

/-- The `q` of a finite value `± m * 2 ^ q`. -/
def exponent (d : Double) : Int :=
  if d.exponentBits = 0 then -1074 else (d.exponentBits : Int) - 1075

/-- A finite value without its sign, as numerator and denominator. -/
def ratio (d : Double) : Nat × Nat :=
  (d.mantissa <<< d.exponent.toNat, 1 <<< (-d.exponent).toNat)

/-- Equality of values: the zeros are equal and what is not a number differs from itself. -/
def numericEq (a b : Double) : Bool :=
  !a.isNaN && !b.isNaN && (a.bits == b.bits || a.isZero && b.isZero)

/-- Positive infinity. -/
def infinity : Double := ⟨0x7ff0000000000000⟩

/-- The value with the opposite sign. -/
def negate (d : Double) : Double := ⟨d.bits ^^^ 0x8000000000000000⟩

/-! ## Rounding -/

/-- `num / den` rounded to the nearest natural number, a half to the even one. -/
def roundToEven (num den : Nat) : Nat :=
  let low := num / den
  let rest := 2 * (num % den)
  if den < rest ∨ (rest = den ∧ low % 2 = 1) then low + 1 else low

/-- The exponent `q` at which `num / den` has a mantissa of 53 bits, but at least the smallest
exponent a double has. One of the two estimates `e` and `e - 1` has exactly 53 bits. -/
def scale (num den : Nat) : Int :=
  let e : Int := (Nat.log2 num : Int) - Nat.log2 den - 52
  let fits := num <<< (-e).toNat ≥ den <<< (52 + e.toNat)
  max (-1074) (if fits then e else e - 1)

/-- The nearest double of `num / den`, a half going to the even mantissa and what is too large to
infinity. The mantissa and the exponent lie side by side in the bit pattern, so that a mantissa that
rounds up to 54 bits carries into the exponent by itself. -/
def ofRatio (num den : Nat) : Double :=
  if num = 0 then ⟨0⟩
  else
    let q := scale num den
    let m := roundToEven (num <<< (-q).toNat) (den <<< q.toNat)
    let bits := m + ((q + 1074).toNat <<< 52)
    if bits ≥ 0x7ff0000000000000 then infinity else ⟨UInt64.ofNat bits⟩

/-- The product of two finite non-negative values, rounded. -/
def times (a b : Double) : Double :=
  ofRatio (a.ratio.1 * b.ratio.1) (a.ratio.2 * b.ratio.2)

/-- The quotient of two finite positive values, rounded. -/
def dividedBy (a b : Double) : Double :=
  ofRatio (a.ratio.1 * b.ratio.2) (a.ratio.2 * b.ratio.1)

end Double
end DisBackend
