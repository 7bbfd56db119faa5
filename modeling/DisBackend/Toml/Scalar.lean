import DisBackend.Double.Digits
import DisBackend.Json.Reader
import DisBackend.Toml.Value

/-!
# `Toml.Scalar` — numbers, truth values and times of a configuration file

Such a value is written without blanks, except that one blank may stand between a date and a time. It
is read as one word and then classified.

## Contents

* `digits?` — digits with underscores between them;
* `integer?`, `isReal`, `isMoment` — the kinds of word;
* `scalar?` — the value of a word.
-/

namespace DisBackend.Toml

/-- The value of a digit in the given base. -/
def digitIn? (base : Nat) (c : Char) : Option Nat := (Json.hexValue? c).filter (· < base)

/-- The number that digits make, with single underscores between them. `value` is that of the digits
before. -/
def moreDigits? (base value : Nat) : List Char → Option Nat
  | [] => some value
  | '_' :: c :: rest =>
    match digitIn? base c with
    | some d => moreDigits? base (base * value + d) rest
    | none => none
  | c :: rest =>
    match digitIn? base c with
    | some d => moreDigits? base (base * value + d) rest
    | none => none

/-- The number that digits make; there is at least one, and underscores stand between digits only. -/
def digits? (base : Nat) : List Char → Option Nat
  | c :: rest => (digitIn? base c).bind fun d => moreDigits? base d rest
  | [] => none

/-- A decimal number without sign: no leading zeros. -/
def decimal? : List Char → Option Nat
  | '0' :: _ :: _ => none
  | text => digits? 10 text

/-- The number, if it fits 64 bits. -/
def fitting? (n : Int) : Option Int :=
  if -9223372036854775808 ≤ n ∧ n ≤ 9223372036854775807 then some n else none

/-- An integer: decimal with an optional sign, or in base 16, 8 or 2. -/
def integer? : List Char → Option Int
  | '0' :: 'x' :: rest => (digits? 16 rest).bind fun n => fitting? n
  | '0' :: 'o' :: rest => (digits? 8 rest).bind fun n => fitting? n
  | '0' :: 'b' :: rest => (digits? 2 rest).bind fun n => fitting? n
  | '+' :: rest => (decimal? rest).bind fun n => fitting? n
  | '-' :: rest => (decimal? rest).bind fun n => fitting? (-n)
  | text => (decimal? text).bind fun n => fitting? n

/-- A text without its sign. -/
def unsigned : List Char → List Char
  | '+' :: rest | '-' :: rest => rest
  | text => text

/-- The exponent of a real after its letter. -/
def exponent? (text : List Char) : Option Int :=
  (digits? 10 (unsigned text)).map fun n => if text.head? = some '-' then -(n : Int) else n

/-- A real number without sign: digits, then a fraction or an exponent or both. -/
def unsignedReal? (text : List Char) : Option Double.Decimal := do
  let isMark (c : Char) : Bool := c == 'e' || c == 'E'
  let mantissa := text.takeWhile (! isMark ·)
  let whole := mantissa.takeWhile (· != '.')
  let fraction := (mantissa.dropWhile (· != '.')).drop 1
  if !mantissa.contains '.' && !text.any isMark then none
  let _ ← decimal? whole
  if mantissa.contains '.' then let _ ← digits? 10 fraction
  let exponent ← if text.any isMark then exponent? ((text.dropWhile (! isMark ·)).drop 1) else some 0
  let digits ← digits? 10 (whole ++ fraction)
  return ⟨digits, exponent - (fraction.filter Char.isDigit).length⟩

/-- A real number. One that is written in digits must not be too large, but may be too small. -/
def isReal (text : List Char) : Bool :=
  let number := unsigned text
  number == ['i', 'n', 'f'] || number == ['n', 'a', 'n']
    || (unsignedReal? number).any fun d => text.head? == some '-' || !d.overflows

/-! ## Times -/

/-- The number that exactly `count` digits make. -/
def exactly? (count : Nat) (text : List Char) : Option Nat :=
  if text.length = count ∧ text.all Char.isDigit then digits? 10 text else none

/-- The number of days of a month. -/
def daysIn (year month : Nat) : Nat :=
  if month = 2 then
    if year % 4 = 0 ∧ (year % 100 ≠ 0 ∨ year % 400 = 0) then 29 else 28
  else if month = 4 ∨ month = 6 ∨ month = 9 ∨ month = 11 then 30
  else 31

/-- A date: year, month and day. -/
def isDate (text : List Char) : Bool :=
  match text with
  | [a, b, c, d, '-', e, f, '-', g, h] =>
    match exactly? 4 [a, b, c, d], exactly? 2 [e, f], exactly? 2 [g, h] with
    | some year, some month, some day =>
      1 ≤ month && month ≤ 12 && 1 ≤ day && day ≤ daysIn year month
    | _, _, _ => false
  | _ => false

/-- Hours and minutes. -/
def isClock (a b c d : Char) : Bool :=
  match exactly? 2 [a, b], exactly? 2 [c, d] with
  | some hour, some minute => hour ≤ 23 && minute ≤ 59
  | _, _ => false

/-- A distance from universal time, or nothing. -/
def isOffset (text : List Char) : Bool :=
  match text with
  | [] | ['Z'] | ['z'] => true
  | [sign, a, b, ':', c, d] => (sign == '+' || sign == '-') && isClock a b c d
  | _ => false

/-- Digits after the point of a second, and perhaps a distance from universal time. -/
def isSubsecond (zoned : Bool) (text : List Char) : Bool :=
  let rest := text.dropWhile Char.isDigit
  text.head?.any Char.isDigit && (if zoned then isOffset rest else rest.isEmpty)

/-- A time of day; with a date before it, it may have a distance from universal time. -/
def isTime (zoned : Bool) (text : List Char) : Bool :=
  match text with
  | a :: b :: ':' :: c :: d :: ':' :: e :: f :: rest =>
    isClock a b c d && (exactly? 2 [e, f]).any (· ≤ 60)
      && match rest with
        | '.' :: rest => isSubsecond zoned rest
        | rest => if zoned then isOffset rest else rest.isEmpty
  | _ => false

/-- A date, a time, or a date and a time. -/
def isMoment (text : List Char) : Bool :=
  let date := text.take 10
  match text.drop 10 with
  | [] => isDate date || isTime false text
  | mark :: rest =>
    (isDate date && (mark == 'T' || mark == 't' || mark == ' ') && isTime true rest)
      || isTime false text

/-! ## Words -/

/-- The value of a word. -/
def scalar? (word : List Char) : Option Value :=
  if word = ['t', 'r', 'u', 'e'] then some (.boolean true)
  else if word = ['f', 'a', 'l', 's', 'e'] then some (.boolean false)
  else
    match integer? word with
    | some n => some (.integer n)
    | none =>
      if isReal word then some (.real (String.ofList word))
      else if isMoment word then some (.moment (String.ofList word))
      else none

end DisBackend.Toml
