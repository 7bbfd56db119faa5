import DisBackend.Module.Reader
import DisBackend.Module.Writer
import DisBackend.Proofs.Module.Numbers

/-!
# `Proofs.Module.Bytes` — words and texts as bytes

Besides numbers of variable length, a module file holds words of fixed length and texts. Each is found again
from its bytes, and what is found is always something that can be written.

## Contents

* `ofNat_numberOf_wordBytesOf`, `longBytesOf_eq` — words;
* `NulFree`, `nulFree_iff`, `textOf_ok_iff` — texts.
-/

namespace DisBackend

/-! ## Words of fixed length -/

/-- A 32-bit word is found again from its bytes. -/
theorem ofNat_numberOf_wordBytesOf (w : UInt32) : UInt32.ofNat (numberOf (wordBytesOf w)) = w := by
  have hlt := w.toNat_lt
  have ha := toNat_byteOf 3 w.toNat
  have hb := toNat_byteOf 2 w.toNat
  have hc := toNat_byteOf 1 w.toNat
  have hd := toNat_byteOf 0 w.toNat
  have hnumber : numberOf (wordBytesOf w) = w.toNat := by
    simp only [numberOf, wordBytesOf, List.foldl_cons, List.foldl_nil]
    omega
  rw [hnumber, UInt32.ofNat_toNat]

/-- A 64-bit word is its high half and its low half. -/
theorem longBytesOf_eq (w : UInt64) :
    longBytesOf w = wordBytesOf (UInt32.ofNat (w.toNat / 4294967296)) ++
      wordBytesOf (UInt32.ofNat (w.toNat % 4294967296)) := by
  have hlt := w.toNat_lt
  have hhigh : (UInt32.ofNat (w.toNat / 4294967296)).toNat = w.toNat / 4294967296 := by
    rw [UInt32.toNat_ofNat']; omega
  have hlow : (UInt32.ofNat (w.toNat % 4294967296)).toNat = w.toNat % 4294967296 := by
    rw [UInt32.toNat_ofNat']; omega
  have hbyte (j k n n' : Nat) (h : n / 2 ^ (8 * j) % 256 = n' / 2 ^ (8 * k) % 256) :
      byteOf j n = byteOf k n' := by
    apply UInt8.toNat_inj.mp
    rw [toNat_byteOf, toNat_byteOf, h]
  simp only [longBytesOf, wordBytesOf, hhigh, hlow, List.cons_append, List.nil_append]
  rw [hbyte 7 3 w.toNat (w.toNat / 4294967296) (by omega),
    hbyte 6 2 w.toNat (w.toNat / 4294967296) (by omega),
    hbyte 5 1 w.toNat (w.toNat / 4294967296) (by omega),
    hbyte 4 0 w.toNat (w.toNat / 4294967296) (by omega),
    hbyte 3 3 w.toNat (w.toNat % 4294967296) (by omega),
    hbyte 2 2 w.toNat (w.toNat % 4294967296) (by omega),
    hbyte 1 1 w.toNat (w.toNat % 4294967296) (by omega),
    hbyte 0 0 w.toNat (w.toNat % 4294967296) (by omega)]

/-! ## Texts -/

/-- The text has no character that is written as a zero byte. -/
def NulFree (s : String) : Prop := Char.ofNat 0 ∉ s.toList

instance (s : String) : Decidable (NulFree s) :=
  inferInstanceAs (Decidable (¬ _))

theorem textBytes_eq (s : String) : textBytes s = s.toList.flatMap String.utf8EncodeChar := by
  have hbytes : s.toUTF8 = (s.toList.flatMap String.utf8EncodeChar).toByteArray := by
    rw [String.toUTF8_eq_toByteArray]
    conv => lhs; rw [← String.ofList_toList (s := s)]
    exact String.toByteArray_ofList
  rw [textBytes, hbytes]
  simp

theorem length_textBytes (s : String) : (textBytes s).length = s.utf8ByteSize := by
  rfl

theorem ofNat_eq_zero_iff (n : Nat) : (0 : UInt8) = UInt8.ofNat n ↔ n % 256 = 0 := by
  rw [← UInt8.toNat_inj, UInt8.toNat_ofNat', eq_comm]
  rfl

theorem zero_mem_utf8EncodeChar_iff (c : Char) :
    (0 : UInt8) ∈ String.utf8EncodeChar c ↔ c = Char.ofNat 0 := by
  have hzero : c = Char.ofNat 0 ↔ c.val.toNat = 0 := by
    rw [← Char.val_inj, ← UInt32.toNat_inj]
    rfl
  rw [hzero]
  simp only [String.utf8EncodeChar]
  by_cases h₁ : c.val.toNat ≤ 127
  · rw [if_pos h₁]
    simp only [List.mem_singleton, ofNat_eq_zero_iff]
    omega
  · rw [if_neg h₁]
    by_cases h₂ : c.val.toNat ≤ 2047
    · rw [if_pos h₂]
      simp only [List.mem_cons, List.not_mem_nil, or_false, ofNat_eq_zero_iff]
      omega
    · rw [if_neg h₂]
      by_cases h₃ : c.val.toNat ≤ 65535
      · rw [if_pos h₃]
        simp only [List.mem_cons, List.not_mem_nil, or_false, ofNat_eq_zero_iff]
        omega
      · rw [if_neg h₃]
        simp only [List.mem_cons, List.not_mem_nil, or_false, ofNat_eq_zero_iff]
        omega

/-- **A text has a zero byte exactly if it has the character for it.** -/
theorem nulFree_iff {s : String} : NulFree s ↔ (0 : UInt8) ∉ textBytes s := by
  rw [textBytes_eq, List.mem_flatMap, NulFree]
  refine not_congr ⟨fun h => ⟨_, h, (zero_mem_utf8EncodeChar_iff _).mpr rfl⟩, ?_⟩
  rintro ⟨c, hc, hzero⟩
  rw [← (zero_mem_utf8EncodeChar_iff c).mp hzero]
  exact hc

/-- **A text is found again from its bytes**, and only from them. -/
theorem textOf_ok_iff {position : Nat} {bytes : Bytes} {s : String} :
    textOf position bytes = .ok s ↔ bytes = textBytes s := by
  unfold textOf String.fromUTF8?
  by_cases hvalid : ByteArray.IsValidUTF8 ⟨bytes.toArray⟩
  · rw [dif_pos hvalid]
    constructor
    · intro h
      cases h
      rfl
    · rintro rfl
      rfl
  · rw [dif_neg hvalid]
    constructor
    · intro h; cases h
    · rintro rfl
      exact absurd s.isValidUTF8 hvalid

end DisBackend
