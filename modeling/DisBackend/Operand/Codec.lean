import DisBackend.Fault

/-!
# `Operand.Codec` — numbers of variable length

A module file holds its numbers in one, two or four bytes. The two highest bits of the first byte
tell the length; the other 7, 14 or 30 bits are the number in two's complement. The writer takes the
shortest form; the reader accepts any.

## Contents

* `Bytes`, `encodeOperand`, `decodeOperand`;
* `signedIn` — reading a bit pattern as a signed number.
-/

namespace DisBackend

/-- A sequence of bytes. -/
abbrev Bytes := List UInt8

/-- The signed number that `n < 2 * half` stands for in two's complement, where numbers from `half` on
are negative. -/
def signedIn (half n : Nat) : Int := if n < half then n else (n : Int) - 2 * half

/-- Byte number `k` of a number, counted from the lowest. -/
def byteOf (k : Nat) (n : Nat) : UInt8 := UInt8.ofNat (n >>> (8 * k))

/-- A number in its shortest form. -/
def encodeOperand (v : Int) : Except Fault Bytes :=
  if -64 ≤ v ∧ v ≤ 63 then .ok [byteOf 0 (v % 128).toNat]
  else if -8192 ≤ v ∧ v ≤ 8191 then
    let n := 32768 + (v % 16384).toNat
    .ok [byteOf 1 n, byteOf 0 n]
  else if Encodable v then
    let n := 3221225472 + (v % 1073741824).toNat
    .ok [byteOf 3 n, byteOf 2 n, byteOf 1 n, byteOf 0 n]
  else .error (.operandRange v)

/-- The number at the start of `bytes`, and how many bytes it takes. -/
def decodeOperand : Bytes → Option (Int × Nat)
  | [] => none
  | a :: rest =>
    if a.toNat < 128 then some (signedIn 64 a.toNat, 1)
    else if a.toNat < 192 then
      match rest with
      | b :: _ => some (signedIn 8192 ((a.toNat - 128) * 256 + b.toNat), 2)
      | [] => none
    else
      match rest with
      | b :: c :: d :: _ =>
        some (signedIn 536870912
          ((((a.toNat - 192) * 256 + b.toNat) * 256 + c.toNat) * 256 + d.toNat), 4)
      | _ => none

end DisBackend
