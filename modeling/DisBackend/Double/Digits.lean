import DisBackend.Double

/-!
# `Double.Digits` — the fewest digits that read back

A finite double stands for all reals that round to it. Among the decimals `d * 10 ^ e` in that
interval the text of a double uses one with the fewest digits, and of those the nearest. Two may be
equally near; which of them is taken is up to the format.

## Contents

* `Double.Decimal` — a number `digits * 10 ^ exponent`, and `Decimal.overflows` whether it is too large;
* `Double.Tie` — which of two equally near decimals is taken;
* `Double.Reading` — the value of a double and the ends of its interval, over one denominator;
* `Double.shortest` — the decimal with the fewest digits.
-/

namespace DisBackend.Double

/-- The number `digits * 10 ^ exponent`. -/
structure Decimal where
  digits : Nat
  exponent : Int
  deriving DecidableEq, Repr

/-- Which of two equally near decimals is taken. -/
inductive Tie where
  /-- The larger one. -/
  | up
  /-- The one whose last digit is even. -/
  | even
  deriving DecidableEq, Repr

/-- The smaller one, `digits`, is taken. -/
def Tie.takesLower (tie : Tie) (digits : Nat) : Bool :=
  match tie with
  | .up => false
  | .even => digits % 2 = 0

/-- A positive value and the interval of reals that round to it, in units of `1 / denominator`. -/
structure Reading where
  value : Nat
  low : Nat
  high : Nat
  denominator : Nat
  /-- The ends of the interval round to the value too. -/
  closed : Bool

/-- The interval of a double other than zero. Below a power of two the neighbours lie half as far
apart, so the lower end is nearer there. -/
def reading (d : Double) : Reading :=
  let atPower := d.fractionBits = 0 ∧ 1 < d.exponentBits
  let unit := 1 <<< d.exponent.toNat
  { value := 4 * d.mantissa * unit
    low := (4 * d.mantissa - (if atPower then 1 else 2)) * unit
    high := (4 * d.mantissa + 2) * unit
    denominator := 4 <<< (-d.exponent).toNat
    closed := d.mantissa % 2 = 0 }

/-- The number of decimal digits of `n`. -/
def digitCount (n : Nat) : Nat := (Nat.toDigits 10 n).length

/-- The `e` with `10 ^ e ≤ num / den < 10 ^ (e + 1)`. -/
def decimalExponent (num den : Nat) : Int :=
  if den ≤ num then (digitCount (num / den) : Int) - 1
  else
    let t := digitCount (den / num)
    if den ≤ num * Nat.pow 10 (t - 1) then 1 - (t : Int) else -(t : Int)

/-- The number is so large that it rounds to infinity. All numbers below `10 ^ 308` are finite and none
from `10 ^ 309` on; only between the two the digits decide. -/
def Decimal.overflows (d : Decimal) : Bool :=
  let length : Int := digitCount d.digits + d.exponent
  if d.digits = 0 ∨ length < 309 then false
  else if 309 < length then true
  else (ofRatio (d.digits * Nat.pow 10 d.exponent.toNat) (Nat.pow 10 (-d.exponent).toNat)).isInfinite

namespace Reading

/-- `candidate * 10 ^ e` lies in the interval. -/
def holds (r : Reading) (candidate : Nat) (e : Int) : Bool :=
  let point := candidate * Nat.pow 10 e.toNat * r.denominator
  let scale := Nat.pow 10 (-e).toNat
  if r.closed then r.low * scale ≤ point && point ≤ r.high * scale
  else r.low * scale < point && point < r.high * scale

/-- The decimal with exponent `e` that is nearest to the value among those of its two neighbours that
lie in the interval. -/
def nearest? (r : Reading) (tie : Tie) (e : Int) : Option Nat :=
  let num := r.value * Nat.pow 10 (-e).toNat
  let den := r.denominator * Nat.pow 10 e.toNat
  let below := num / den
  match r.holds below e, r.holds (below + 1) e with
  | true, true =>
    let lower := 2 * (num % den) < den ∨ (2 * (num % den) = den ∧ tie.takesLower below)
    some (if lower then below else below + 1)
  | true, false => some below
  | false, true => some (below + 1)
  | false, false => none

/-- The first hit on the grids with exponents `e`, `e - 1`, …, at most `fuel` of them. -/
def search (r : Reading) (tie : Tie) : (fuel : Nat) → Int → Decimal
  | 0, e => ⟨0, e⟩
  | fuel + 1, e =>
    match r.nearest? tie e with
    | some digits => ⟨digits, e⟩
    | none => r.search tie fuel (e - 1)

end Reading

/-- `d` without trailing zeros in its digits, at most `fuel` of them. -/
def Decimal.strip : Nat → Decimal → Decimal
  | 0, d => d
  | fuel + 1, d =>
    if d.digits ≠ 0 ∧ d.digits % 10 = 0 then Decimal.strip fuel ⟨d.digits / 10, d.exponent + 1⟩ else d

/-- The decimal with the fewest digits that reads back as `d`, for a finite `d` other than zero.
Seventeen digits tell any two doubles apart, so the search ends on the eighteenth grid at the
latest. -/
def shortest (d : Double) (tie : Tie) : Decimal :=
  let r := d.reading
  Decimal.strip 18 (r.search tie 18 (decimalExponent r.value r.denominator))

end DisBackend.Double
