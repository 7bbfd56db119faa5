import DisBackend.Double.Digits

/-!
# `Double.Layout` — how reals are written

The digits of a real are the fewest that read back; three places write them differently. A listing of
module data never uses an exponent and writes whole numbers without a fraction. A listing of a
program always shows a fraction or an exponent. The JSON form does so too, with a signed exponent.

## Contents

* `Double.Layout`, `Double.text` — the layout of the digits, and a real in a given layout;
* `Double.dataLayout`, `Double.listingLayout`, `Double.jsonLayout` — the three layouts.
-/

namespace DisBackend.Double

/-- Where an exponent is used and how whole numbers and exponents look. -/
structure Layout where
  /-- The decimal exponents that are written out positionally: from the first up to, but not
  including, the second. None: all. -/
  positional : Option (Int × Int)
  /-- A whole number written positionally ends in `.0`. -/
  keepsFraction : Bool
  /-- A positive exponent has a plus sign. -/
  signedExponent : Bool
  /-- Which of two equally near decimals is written. -/
  tie : Tie

/-- Module data listings: no exponent, no empty fraction. -/
def dataLayout : Layout := ⟨none, false, false, .up⟩

/-- Program listings: positional from `1e-4` to below `1e16`. -/
def listingLayout : Layout := ⟨some (-4, 16), true, false, .up⟩

/-- JSON text: positional from `1e-5` to below `1e16`. -/
def jsonLayout : Layout := ⟨some (-5, 16), true, true, .even⟩

/-- `count` zeros. -/
def zeros (count : Nat) : String := String.ofList (List.replicate count '0')

/-- `digits * 10 ^ exponent` without an exponent. -/
def Layout.positionalText (layout : Layout) (d : Decimal) : String :=
  let digits := toString d.digits
  if 0 ≤ d.exponent then
    digits ++ zeros d.exponent.toNat ++ (if layout.keepsFraction then ".0" else "")
  else
    let places := (-d.exponent).toNat
    let padded := zeros (places + 1 - digits.length) ++ digits
    let whole := padded.length - places
    (padded.take whole).toString ++ "." ++ (padded.drop whole).toString

/-- `digits * 10 ^ exponent` with one digit before the point and an exponent. -/
def Layout.exponentText (layout : Layout) (d : Decimal) : String :=
  let digits := toString d.digits
  let power := d.exponent + digits.length - 1
  let rest := (digits.drop 1).toString
  let fraction := if rest = "" then "" else "." ++ rest
  let sign := if layout.signedExponent ∧ 0 ≤ power then "+" else ""
  (digits.take 1).toString ++ fraction ++ "e" ++ sign ++ toString power

/-- A decimal in a given layout. -/
def Layout.decimalText (layout : Layout) (d : Decimal) : String :=
  let power := d.exponent + (toString d.digits).length - 1
  match layout.positional with
  | none => layout.positionalText d
  | some (first, last) =>
    if first ≤ power ∧ power < last then layout.positionalText d else layout.exponentText d

/-- A real in a given layout. -/
def text (layout : Layout) (d : Double) : String :=
  if d.isNaN then "NaN"
  else
    let sign := if d.isNegative then "-" else ""
    if d.isInfinite then sign ++ "inf"
    else if d.isZero then sign ++ layout.positionalText ⟨0, 0⟩
    else sign ++ layout.decimalText (d.shortest layout.tie)

end DisBackend.Double
