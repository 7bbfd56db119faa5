import DisBackend.Json.Value

/-!
# `Json.Reader` — JSON text to values

The grammar is the strict one: no comments, no trailing commas, no leading zeros, no control
characters in strings, and only white space after the value. Half of a surrogate pair and a number too
large for a double are well formed, but stand for nothing.

A number with a fraction or an exponent is read in two roundings: its digits, as far as they fit 64
bits, are rounded to a double, and the product or quotient with the power of ten is rounded again.

## Contents

* `skipBlanks`, `readString`, `readNumber` — the tokens;
* `scaled?` — a significand times a power of ten;
* `readValue`, `parse?` — values, and a whole text.
-/

namespace DisBackend.Json

/-- The text after leading white space. -/
def skipBlanks (text : List Char) : List Char :=
  text.dropWhile fun c => c == ' ' || c == '\t' || c == '\n' || c == '\r'

/-! ## Strings -/

/-- The value of a hexadecimal digit. -/
def hexValue? (c : Char) : Option Nat :=
  if '0' ≤ c ∧ c ≤ '9' then some (c.toNat - '0'.toNat)
  else if 'a' ≤ c ∧ c ≤ 'f' then some (c.toNat - 'a'.toNat + 10)
  else if 'A' ≤ c ∧ c ≤ 'F' then some (c.toNat - 'A'.toNat + 10)
  else none

/-- The value of four hexadecimal digits. -/
def hex4? (a b c d : Char) : Option Nat := do
  return (((← hexValue? a) * 16 + (← hexValue? b)) * 16 + (← hexValue? c)) * 16 + (← hexValue? d)

/-- The character that a backslash and `c` stand for. -/
def escaped? : Char → Option Char
  | '"' => some '"'
  | '\\' => some '\\'
  | '/' => some '/'
  | 'b' => some '\x08'
  | 'f' => some '\x0c'
  | 'n' => some '\n'
  | 'r' => some '\r'
  | 't' => some '\t'
  | _ => none

/-- The string up to the closing quote, and the text after it. What was read so far is given in reverse
order; there is no string if half of a surrogate pair was among it. -/
def readString (done : Option (List Char)) : List Char → Option (Option String × List Char)
  | [] => none
  | '"' :: rest => some (done.map fun cs => String.ofList cs.reverse, rest)
  | '\\' :: 'u' :: a :: b :: c :: d :: rest =>
    match hex4? a b c d with
    | none => none
    | some n =>
      if 0xd800 ≤ n ∧ n < 0xdc00 then
        match rest with
        | '\\' :: 'u' :: e :: f :: g :: h :: rest' =>
          match hex4? e f g h with
          | none => none
          | some m =>
            if 0xdc00 ≤ m ∧ m < 0xe000 then
              let joined := Char.ofNat (0x10000 + (n - 0xd800) * 0x400 + (m - 0xdc00))
              readString (done.map (joined :: ·)) rest'
            else readString none rest'
        | rest => readString none rest
      else if 0xdc00 ≤ n ∧ n < 0xe000 then readString none rest
      else readString (done.map (Char.ofNat n :: ·)) rest
  | '\\' :: c :: rest =>
    match escaped? c with
    | none => none
    | some e => readString (done.map (e :: ·)) rest
  | c :: rest =>
    if c.toNat < 0x20 ∨ c = '\\' then none else readString (done.map (c :: ·)) rest

/-! ## Numbers -/

/-- The largest significand that is kept exactly. -/
def maxSignificand : Nat := 18446744073709551615

/-- The value of a decimal digit. -/
def digitValue (c : Char) : Nat := c.toNat - '0'.toNat

/-- The digits of a number before they are scaled: `significand * 10 ^ exponent`. -/
structure Scan where
  significand : Nat
  exponent : Int

/-- The digits before the point. From the first digit on that does not fit, digits only raise the
exponent. -/
def scanWhole (digits : List Char) : Scan :=
  digits.foldl
    (fun s c =>
      let next := s.significand * 10 + digitValue c
      if s.exponent = 0 ∧ next ≤ maxSignificand then ⟨next, 0⟩ else ⟨s.significand, s.exponent + 1⟩)
    ⟨0, 0⟩

/-- The digits after the point. From the first digit on that does not fit, digits are ignored. -/
def scanFraction (whole : Scan) : List Char → Scan
  | [] => whole
  | c :: rest =>
    let next := whole.significand * 10 + digitValue c
    if next ≤ maxSignificand then scanFraction ⟨next, whole.exponent - 1⟩ rest else whole

/-- The power of ten with a given exponent, rounded to a double. -/
def powerOfTen (e : Nat) : Double := Double.ofRatio (Nat.pow 10 e) 1

/-- `d / 10 ^ e`, in steps of at most 308 digits. -/
def scaleDown (d : Double) (e : Nat) : Double :=
  if e ≤ 308 then d.dividedBy (powerOfTen e)
  else if d.isZero then d
  else scaleDown (d.dividedBy (powerOfTen 308)) (e - 308)
termination_by e

/-- The digits of a number times their power of ten, unless that is too large for a double. -/
def scaled? (s : Scan) : Option Double :=
  let d := Double.ofRatio s.significand 1
  if s.exponent < 0 then some (scaleDown d (-s.exponent).toNat)
  else if s.exponent ≤ 308 then
    let product := d.times (powerOfTen s.exponent.toNat)
    if product.isInfinite then none else some product
  else if d.isZero then some d
  else none

/-- The exponent after the letter `e`, and the text after it. -/
def readExponent (text : List Char) : Option (Int × List Char) :=
  let (negative, text) := match text with
    | '+' :: rest => (false, rest)
    | '-' :: rest => (true, rest)
    | _ => (false, text)
  let (digits, rest) := text.span Char.isDigit
  if digits = [] then none
  else
    let value : Nat := digits.foldl (fun n c => n * 10 + digitValue c) 0
    some (if negative then -(value : Int) else value, rest)

/-- A real number with its sign. -/
def signedReal (negative : Bool) (s : Scan) : Value :=
  match scaled? s with
  | some d => .real (if negative then d.negate else d)
  | none => .void

/-- A number without fraction and exponent: an integer if it fits 64 bits. The negative of zero is a
real, since no integer is. -/
def wholeNumber (negative : Bool) (s : Scan) : Value :=
  if s.exponent = 0 then
    if negative then
      if 0 < s.significand ∧ s.significand ≤ 9223372036854775808 then .int (-s.significand)
      else signedReal true s
    else .int s.significand
  else signedReal negative s

/-- The number after its sign, and the text after it. -/
def readUnsigned (negative : Bool) (text : List Char) : Option (Value × List Char) := do
  let (whole, rest) := text.span Char.isDigit
  if whole = [] ∨ (whole.head? = some '0' ∧ 1 < whole.length) then none
  let scan := scanWhole whole
  let (scan, isReal, rest) ← match rest with
    | '.' :: after =>
      let (fraction, rest) := after.span Char.isDigit
      if fraction = [] then none else some (scanFraction scan fraction, true, rest)
    | _ => some (scan, false, rest)
  match rest with
  | 'e' :: after | 'E' :: after =>
    let (e, rest) ← readExponent after
    return (signedReal negative ⟨scan.significand, scan.exponent + e⟩, rest)
  | _ => return (if isReal then signedReal negative scan else wholeNumber negative scan, rest)

/-- The number at the start of the text, and the text after it. -/
def readNumber : List Char → Option (Value × List Char)
  | '-' :: rest => readUnsigned true rest
  | text => readUnsigned false text

/-! ## Values -/

/-- The text after a given beginning. -/
def after? : List Char → List Char → Option (List Char)
  | [], text => some text
  | c :: word, d :: text => if c = d then after? word text else none
  | _ :: _, [] => none

mutual

/-- The value at the start of the text, and the text after it. `fuel` is at least twice the length of the
text. -/
def readValue (fuel : Nat) (text : List Char) : Option (Value × List Char) :=
  match fuel with
  | 0 => none
  | fuel + 1 =>
    match skipBlanks text with
    | '"' :: rest => (readString (some []) rest).map fun (s, rest) => (s.elim .void .string, rest)
    | '[' :: rest =>
      match skipBlanks rest with
      | ']' :: rest => some (.array [], rest)
      | rest => (readElements fuel [] rest).map fun (vs, rest) => (.array vs, rest)
    | '{' :: rest =>
      match skipBlanks rest with
      | '}' :: rest => some (.object [], rest)
      | rest => (readFields fuel (some []) rest).map fun (fs, rest) => (fs.elim .void .object, rest)
    | 'n' :: rest => (after? ['u', 'l', 'l'] rest).map fun rest => (.null, rest)
    | 't' :: rest => (after? ['r', 'u', 'e'] rest).map fun rest => (.bool true, rest)
    | 'f' :: rest => (after? ['a', 'l', 's', 'e'] rest).map fun rest => (.bool false, rest)
    | text => readNumber text

/-- The elements of an array up to the closing bracket; those read so far are given in reverse order. -/
def readElements (fuel : Nat) (done : List Value) (text : List Char) :
    Option (List Value × List Char) :=
  match fuel with
  | 0 => none
  | fuel + 1 =>
    match readValue fuel text with
    | none => none
    | some (v, rest) =>
      match skipBlanks rest with
      | ',' :: rest => readElements fuel (v :: done) rest
      | ']' :: rest => some ((v :: done).reverse, rest)
      | _ => none

/-- The fields of an object up to the closing brace; those read so far are given in reverse order. There
are none if one of the names is no text. -/
def readFields (fuel : Nat) (done : Option (List (String × Value))) (text : List Char) :
    Option (Option (List (String × Value)) × List Char) :=
  match fuel with
  | 0 => none
  | fuel + 1 =>
    match skipBlanks text with
    | '"' :: rest =>
      match readString (some []) rest with
      | none => none
      | some (name, rest) =>
        match skipBlanks rest with
        | ':' :: rest =>
          match readValue fuel rest with
          | none => none
          | some (v, rest) =>
            let done := done.bind fun fields => name.map fun name => (name, v) :: fields
            match skipBlanks rest with
            | ',' :: rest => readFields fuel done rest
            | '}' :: rest => some (done.map List.reverse, rest)
            | _ => none
        | _ => none
    | _ => none

end

/-- The value that a text stands for. -/
def parse? (text : String) : Option Value :=
  let chars := text.toList
  match readValue (2 * chars.length + 1) chars with
  | some (v, rest) => if skipBlanks rest = [] then some v else none
  | none => none

end DisBackend.Json
