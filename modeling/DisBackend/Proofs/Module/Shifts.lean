import DisBackend.Proofs.Module.Numbers

/-!
# `Proofs.Module.Shifts` — numbers by shifts and masks

On a machine the forms of a number are made by shifts and masks of a 32-bit word, and they are read by
shifting the sign to the top of a word and back. `encodeOperand` and `decodeOperand` do the same by
arithmetic: for every word that can be written the bytes are those of the shifts, and for all bytes the
number is the one that the shifts give.

## Contents

* `lowByte`, `shiftEncode` — writing by shifts;
* `widen`, `shiftDecode` — reading by shifts;
* `toNat_lowByte_shift`, `toInt_shift_back`, `toNat_join` — shifts as arithmetic;
* `encodeOperand_eq_shifts`, `decodeOperand_eq_shifts` — the two agree;
* `shiftDecode_shiftEncode` — what is written by shifts is read by shifts.
-/

namespace DisBackend

/-! ## Writing -/

/-- The lowest byte of a word. -/
def lowByte (v : BitVec 32) : UInt8 := .ofBitVec (v.setWidth 8)

/-- A word in its shortest form. -/
def shiftEncode (v : BitVec 32) : Bytes :=
  if -64 ≤ v.toInt ∧ v.toInt ≤ 63 then [lowByte v &&& ~~~0x80]
  else if -8192 ≤ v.toInt ∧ v.toInt ≤ 8191 then
    [lowByte (v.sshiftRight 8) &&& ~~~0xC0 ||| 0x80, lowByte v]
  else
    [lowByte (v.sshiftRight 24) ||| 0xC0, lowByte (v.sshiftRight 16), lowByte (v.sshiftRight 8), lowByte v]

theorem toNat_lowByte (v : BitVec 32) : ((lowByte v).toNat : Int) = v.toInt % 256 := by
  have hlow : (lowByte v).toNat = v.toNat % 256 := BitVec.toNat_setWidth 8 v
  rw [hlow, BitVec.toInt_eq_toNat_cond]
  split <;> omega

/-- A shift to the right divides, and rounds down. -/
theorem toNat_lowByte_shift (v : BitVec 32) (k : Nat) :
    ((lowByte (v.sshiftRight k)).toNat : Int) = v.toInt / (2 ^ k : Nat) % 256 := by
  rw [toNat_lowByte, BitVec.toInt_sshiftRight, Int.shiftRight_eq_div_pow]

/-- Masks of a byte are looked up: there are 256 bytes. -/
theorem of_all_bytes {p : UInt8 → Prop} (h : ∀ n : Fin 256, p (.ofFin n)) : ∀ b, p b := by
  intro b
  exact h b.toFin

theorem toNat_and_mask : ∀ b : UInt8, (b &&& ~~~0x80).toNat = b.toNat % 128 :=
  of_all_bytes (by decide +kernel)

theorem toNat_mark_two : ∀ b : UInt8, (b &&& ~~~0xC0 ||| 0x80).toNat = 128 + b.toNat % 64 :=
  of_all_bytes (by decide +kernel)

theorem toNat_mark_four : ∀ b : UInt8, (b ||| 0xC0).toNat = 192 + b.toNat % 64 :=
  of_all_bytes (by decide +kernel)

theorem byteOf_eq {k n : Nat} {b : UInt8} (h : n / 2 ^ (8 * k) % 256 = b.toNat) : byteOf k n = b := by
  rw [← UInt8.toNat_inj, toNat_byteOf, h]

/-- **A number in range is written as the shifts write it.** -/
theorem encodeOperand_eq_shifts (v : BitVec 32) :
    encodeOperand v.toInt =
      if Encodable v.toInt then .ok (shiftEncode v) else .error (.operandRange v.toInt) := by
  have h₀ := toNat_lowByte v
  have h₁ := toNat_lowByte_shift v 8
  have h₂ := toNat_lowByte_shift v 16
  have h₃ := toNat_lowByte_shift v 24
  unfold encodeOperand shiftEncode
  by_cases hone : -64 ≤ v.toInt ∧ v.toInt ≤ 63
  · have hencodable : Encodable v.toInt := by unfold Encodable operandMin operandMax; omega
    rw [if_pos hone, if_pos hencodable, if_pos hone, byteOf_eq]
    rw [toNat_and_mask]
    omega
  rw [if_neg hone, if_neg hone]
  by_cases htwo : -8192 ≤ v.toInt ∧ v.toInt ≤ 8191
  · have hencodable : Encodable v.toInt := by unfold Encodable operandMin operandMax; omega
    rw [if_pos htwo, if_pos hencodable, if_pos htwo]
    dsimp only
    rw [byteOf_eq (k := 1), byteOf_eq (k := 0)]
    · omega
    · rw [toNat_mark_two]
      omega
  rw [if_neg htwo, if_neg htwo]
  by_cases hencodable : Encodable v.toInt
  · rw [if_pos hencodable, if_pos hencodable]
    dsimp only
    rw [byteOf_eq (k := 3), byteOf_eq (k := 2), byteOf_eq (k := 1), byteOf_eq (k := 0)]
    · omega
    · omega
    · omega
    · rw [toNat_mark_four]
      omega
  · rw [if_neg hencodable, if_neg hencodable]

/-! ## Reading -/

/-- A byte as a word. -/
def widen (b : UInt8) : BitVec 32 := b.toBitVec.setWidth 32

theorem toNat_widen (b : UInt8) : (widen b).toNat = b.toNat := by
  rw [widen, BitVec.toNat_setWidth]
  exact Nat.mod_eq_of_lt (Nat.lt_trans b.toNat_lt (by decide))

/-- The word at the start of `bytes`, and how many bytes it takes. -/
def shiftDecode : Bytes → Option (BitVec 32 × Nat)
  | [] => none
  | a :: rest =>
    if a &&& 0xC0 = 0x00 ∨ a &&& 0xC0 = 0x40 then some ((widen a <<< 25).sshiftRight 25, 1)
    else if a &&& 0xC0 = 0x80 then
      match rest with
      | b :: _ => some (((widen a <<< 8 ||| widen b) <<< 18).sshiftRight 18, 2)
      | [] => none
    else
      match rest with
      | b :: c :: d :: _ =>
        some (((widen a <<< 24 ||| widen b <<< 16 ||| widen c <<< 8 ||| widen d) <<< 2).sshiftRight 2, 4)
      | _ => none

/-- **There and back:** a shift to the left and back to the right keeps the lowest bits, the highest of which
becomes the sign. -/
theorem toInt_shift_back (x : BitVec 32) {k : Nat} (hk : k < 32) :
    ((x <<< k).sshiftRight k).toInt = signedIn (2 ^ (31 - k)) (x.toNat % 2 ^ (32 - k)) := by
  have hpos : 0 < 2 ^ k := Nat.two_pow_pos k
  have hsplit : 2 ^ (32 - k) * 2 ^ k = 2 ^ 32 := by
    rw [← Nat.pow_add, Nat.sub_add_cancel (Nat.le_of_lt hk)]
  have hhalf : 2 ^ (32 - k) = 2 * 2 ^ (31 - k) := by
    rw [← Nat.pow_succ']
    congr 1
    omega
  have hleft : (x <<< k).toNat = x.toNat % 2 ^ (32 - k) * 2 ^ k := by
    rw [BitVec.toNat_shiftLeft, Nat.shiftLeft_eq, ← hsplit, Nat.mul_mod_mul_right]
  have htop : 2 * (x <<< k).toNat < 2 ^ 32 ↔ x.toNat % 2 ^ (32 - k) < 2 ^ (31 - k) := by
    rw [hleft, ← hsplit, hhalf, ← Nat.mul_assoc, Nat.mul_lt_mul_right hpos, Nat.mul_lt_mul_left (by decide)]
  rw [BitVec.toInt_sshiftRight, Int.shiftRight_eq_div_pow, BitVec.toInt_eq_toNat_cond, signedIn]
  have hne : ((2 ^ k : Nat) : Int) ≠ 0 := by omega
  by_cases hsign : x.toNat % 2 ^ (32 - k) < 2 ^ (31 - k)
  · rw [if_pos hsign, if_pos (htop.mpr hsign), hleft, Int.natCast_mul, Int.mul_ediv_cancel _ hne]
  · have hdifference : ((x.toNat % 2 ^ (32 - k) * 2 ^ k : Nat) : Int) - (2 ^ 32 : Nat) =
        ((x.toNat % 2 ^ (32 - k) : Nat) - 2 * (2 ^ (31 - k) : Nat)) * (2 ^ k : Nat) := by
      rw [← hsplit, hhalf, Int.natCast_mul, Int.natCast_mul, Int.natCast_mul, Int.sub_mul]
      rfl
    rw [if_neg hsign, if_neg (mt htop.mp hsign), hleft, hdifference, Int.mul_ediv_cancel _ hne]

/-- A byte is put behind a word that has room for it. -/
theorem toNat_join (x : BitVec 32) (b : UInt8) (hx : x.toNat < 2 ^ 24) :
    (x <<< 8 ||| widen b).toNat = x.toNat * 256 + b.toNat := by
  have hbyte : b.toNat < 2 ^ 8 := b.toNat_lt
  have hleft : (x <<< 8).toNat = x.toNat <<< 8 := by
    rw [BitVec.toNat_shiftLeft, Nat.shiftLeft_eq]
    exact Nat.mod_eq_of_lt (by omega)
  rw [BitVec.toNat_or, toNat_widen, hleft, ← Nat.shiftLeft_add_eq_or_of_lt hbyte, Nat.shiftLeft_eq]

/-- The two highest bits of the first byte tell the length. -/
theorem and_mask_iff : ∀ a : UInt8,
    ((a &&& 0xC0 = 0x00 ∨ a &&& 0xC0 = 0x40) ↔ a.toNat < 128) ∧
    (a &&& 0xC0 = 0x80 ↔ 128 ≤ a.toNat ∧ a.toNat < 192) :=
  of_all_bytes (by decide +kernel)

theorem toNat_join_two (a b : UInt8) : (widen a <<< 8 ||| widen b).toNat = a.toNat * 256 + b.toNat := by
  have ha := a.toNat_lt
  rw [toNat_join, toNat_widen]
  rw [toNat_widen]
  omega

theorem toNat_join_four (a b c d : UInt8) :
    (widen a <<< 24 ||| widen b <<< 16 ||| widen c <<< 8 ||| widen d).toNat =
      ((a.toNat * 256 + b.toNat) * 256 + c.toNat) * 256 + d.toNat := by
  have ha := a.toNat_lt
  have hb := b.toNat_lt
  have hc := c.toNat_lt
  have hnested : widen a <<< 24 ||| widen b <<< 16 ||| widen c <<< 8 ||| widen d =
      ((widen a <<< 8 ||| widen b) <<< 8 ||| widen c) <<< 8 ||| widen d := by
    simp only [BitVec.shiftLeft_or_distrib, ← BitVec.shiftLeft_add, Nat.reduceAdd]
  have hthree : ((widen a <<< 8 ||| widen b) <<< 8 ||| widen c).toNat =
      (a.toNat * 256 + b.toNat) * 256 + c.toNat := by
    rw [toNat_join, toNat_join_two]
    rw [toNat_join_two]
    omega
  rw [hnested, toNat_join, hthree]
  rw [hthree]
  omega

/-- **All bytes are read as the shifts read them.** -/
theorem decodeOperand_eq_shifts (bytes : Bytes) :
    decodeOperand bytes = (shiftDecode bytes).map fun p => (p.1.toInt, p.2) := by
  cases bytes with
  | nil => rfl
  | cons a rest =>
    have ha := a.toNat_lt
    obtain ⟨hone, htwo⟩ := and_mask_iff a
    unfold decodeOperand shiftDecode
    dsimp only
    by_cases h₁ : a.toNat < 128
    · rw [if_pos h₁, if_pos (hone.mpr h₁), Option.map_some, toInt_shift_back _ (by decide), toNat_widen]
      congr 3
      omega
    rw [if_neg h₁, if_neg (mt hone.mp h₁)]
    by_cases h₂ : a.toNat < 192
    · rw [if_pos h₂, if_pos (htwo.mpr ⟨by omega, h₂⟩)]
      cases rest with
      | nil => rfl
      | cons b rest =>
        have hb := b.toNat_lt
        dsimp only
        rw [Option.map_some, toInt_shift_back _ (by decide), toNat_join_two]
        congr 3
        omega
    rw [if_neg h₂, if_neg (fun h => h₂ (htwo.mp h).2)]
    rcases rest with _ | ⟨b, _ | ⟨c, _ | ⟨d, rest⟩⟩⟩
    · rfl
    · rfl
    · rfl
    · have hb := b.toNat_lt
      have hc := c.toNat_lt
      have hd := d.toNat_lt
      dsimp only
      rw [Option.map_some, toInt_shift_back _ (by decide), toNat_join_four]
      congr 3
      omega

/-- **What is written by shifts is read by shifts,** whatever follows. -/
theorem shiftDecode_shiftEncode {v : BitVec 32} (h : Encodable v.toInt) (rest : Bytes) :
    shiftDecode (shiftEncode v ++ rest) = some (v, (shiftEncode v).length) := by
  have hencode := encodeOperand_eq_shifts v
  rw [if_pos h] at hencode
  have hdecode := decodeOperand_encodeOperand hencode rest
  rw [decodeOperand_eq_shifts, Option.map_eq_some_iff] at hdecode
  obtain ⟨p, hread, hsame⟩ := hdecode
  obtain ⟨hword, hlength⟩ := Prod.mk.inj hsame
  have hp : p = (v, (shiftEncode v).length) := Prod.ext (BitVec.eq_of_toInt_eq hword) hlength
  rw [hread, hp]

end DisBackend
