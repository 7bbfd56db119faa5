/-!
# `Text.Numeral` — hexadecimal and padded numbers

## Contents

* `hexDigits`, `hexByte`, `hexBytes` — lower-case hexadecimal;
* `hexWord` — a 32-bit number as `0x` and eight digits;
* `padLeft`, `padRight` — text set in a column.
-/

namespace DisBackend.Text

/-- `n` in lower-case hexadecimal, without leading zeros. -/
def hexDigits (n : Nat) : String := String.ofList (Nat.toDigits 16 n)

/-- `text` behind as many copies of `fill` as bring it to `width` characters. -/
def padLeft (width : Nat) (fill : Char) (text : String) : String :=
  String.ofList (List.replicate (width - text.length) fill) ++ text

/-- `text` before as many copies of `fill` as bring it to `width` characters. -/
def padRight (width : Nat) (fill : Char) (text : String) : String :=
  text ++ String.ofList (List.replicate (width - text.length) fill)

/-- A byte as two hexadecimal digits. -/
def hexByte (byte : UInt8) : String := padLeft 2 '0' (hexDigits byte.toNat)

/-- Bytes as hexadecimal digits, two for each. -/
def hexBytes (bytes : List UInt8) : String := String.join (bytes.map hexByte)

/-- A 32-bit number as `0x` and eight hexadecimal digits. -/
def hexWord (word : UInt32) : String := "0x" ++ padLeft 8 '0' (hexDigits word.toNat)

end DisBackend.Text
