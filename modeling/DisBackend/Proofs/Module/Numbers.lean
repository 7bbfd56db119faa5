import Mathlib.Algebra.Group.Nat.Defs
import DisBackend.Operand.Codec

/-!
# `Proofs.Module.Numbers` — numbers of variable length

A number takes one, two or four bytes, and the first byte tells how many. Writing takes the shortest form
there is, reading accepts every form. Everything else in a module file rests on this: what is read depends
on the bytes of the number alone, so that a number can be followed by anything.

## Contents

* `OperandForm` — the bytes of a number, in each of the three forms;
* `decodeOperand_eq_some_iff`, `encodeOperand_form` — reading and writing, in terms of the forms;
* `OperandForm.shortest`, `decodeOperand_take` — what is written is shortest, what is read needs no more;
* `decodeOperand_exact` — writing and reading belong together.
-/

namespace DisBackend

/-! ## Bytes of a number -/

theorem toNat_byteOf (k n : Nat) : (byteOf k n).toNat = n / 2 ^ (8 * k) % 256 := by
  rw [byteOf, UInt8.toNat_ofNat', Nat.shiftRight_eq_div_pow]

theorem signedIn_range {half n : Nat} (h : n < 2 * half) :
    -(half : Int) ≤ signedIn half n ∧ signedIn half n < half := by
  unfold signedIn
  by_cases hneg : n < half
  · rw [if_pos hneg]; omega
  · rw [if_neg hneg]; omega

/-- Reading the low bits of a number as a signed number gives it back. -/
theorem signedIn_emod {half : Nat} {modulus v : Int} (hmodulus : modulus = 2 * half)
    (hlow : -(half : Int) ≤ v) (hhigh : v < half) : signedIn half (v % modulus).toNat = v := by
  unfold signedIn
  by_cases hneg : v < 0
  · have hmod : v % modulus = v + modulus := by
      rw [← Int.add_emod_right, Int.emod_eq_of_lt] <;> omega
    rw [if_neg] <;> omega
  · have hmod : v % modulus = v := Int.emod_eq_of_lt (by omega) (by omega)
    rw [if_pos] <;> omega

/-! ## Forms -/

/-- `form` is a number `v` written in one of the three ways. The other bits of the first byte are the highest
bits of the number. -/
inductive OperandForm : (form : Bytes) → (v : Int) → Prop where
  | one (a : UInt8) (first : a.toNat < 128) : OperandForm [a] (signedIn 64 a.toNat)
  | two (a b : UInt8) (first : 128 ≤ a.toNat ∧ a.toNat < 192) :
    OperandForm [a, b] (signedIn 8192 ((a.toNat - 128) * 256 + b.toNat))
  | four (a b c d : UInt8) (first : 192 ≤ a.toNat) :
    OperandForm [a, b, c, d] (signedIn 536870912
      ((((a.toNat - 192) * 256 + b.toNat) * 256 + c.toNat) * 256 + d.toNat))

namespace OperandForm

variable {form : Bytes} {v : Int}

theorem length_pos (h : OperandForm form v) : 0 < form.length := by
  cases h <;> simp

/-- The range of numbers that a form of each length can hold. -/
theorem range (h : OperandForm form v) :
    (form.length = 1 ∧ -64 ≤ v ∧ v ≤ 63) ∨ (form.length = 2 ∧ -8192 ≤ v ∧ v ≤ 8191) ∨
      (form.length = 4 ∧ Encodable v) := by
  cases h with
  | one a first =>
    have hrange := @signedIn_range 64 a.toNat (by omega)
    refine .inl ⟨rfl, ?_⟩
    omega
  | two a b first =>
    have hb := b.toNat_lt
    have hrange := @signedIn_range 8192 ((a.toNat - 128) * 256 + b.toNat) (by omega)
    refine .inr (.inl ⟨rfl, ?_⟩)
    omega
  | four a b c d first =>
    have ha := a.toNat_lt
    have hb := b.toNat_lt
    have hc := c.toNat_lt
    have hd := d.toNat_lt
    have hrange := @signedIn_range 536870912
      ((((a.toNat - 192) * 256 + b.toNat) * 256 + c.toNat) * 256 + d.toNat) (by omega)
    refine .inr (.inr ⟨rfl, ?_⟩)
    unfold Encodable operandMin operandMax
    omega

theorem encodable (h : OperandForm form v) : Encodable v := by
  rcases h.range with ⟨-, hrange⟩ | ⟨-, hrange⟩ | ⟨-, hrange⟩
  · unfold Encodable operandMin operandMax; omega
  · unfold Encodable operandMin operandMax; omega
  · exact hrange

end OperandForm

/-! ## Reading -/

/-- **What is read is a form at the start of the bytes,** whatever follows it. -/
theorem decodeOperand_eq_some_iff {bytes : Bytes} {v : Int} {n : Nat} :
    decodeOperand bytes = some (v, n) ↔
      ∃ form rest, bytes = form ++ rest ∧ OperandForm form v ∧ n = form.length := by
  constructor
  · intro h
    cases bytes with
    | nil => cases h
    | cons a rest =>
      simp only [decodeOperand] at h
      by_cases hone : a.toNat < 128
      · rw [if_pos hone] at h
        cases h
        exact ⟨[a], rest, rfl, .one a hone, rfl⟩
      rw [if_neg hone] at h
      by_cases htwo : a.toNat < 192
      · rw [if_pos htwo] at h
        rcases rest with _ | ⟨b, rest⟩
        · cases h
        · cases h
          exact ⟨[a, b], rest, rfl, .two a b ⟨by omega, htwo⟩, rfl⟩
      · rw [if_neg htwo] at h
        rcases rest with _ | ⟨b, _ | ⟨c, _ | ⟨d, rest⟩⟩⟩
        · cases h
        · cases h
        · cases h
        · cases h
          exact ⟨[a, b, c, d], rest, rfl, .four a b c d (by omega), rfl⟩
  · rintro ⟨form, rest, rfl, hform, rfl⟩
    cases hform with
    | one a first => simp [decodeOperand, first]
    | two a b first =>
      have hone : ¬ a.toNat < 128 := by omega
      simp [decodeOperand, hone, first.2]
    | four a b c d first =>
      have hone : ¬ a.toNat < 128 := by omega
      have htwo : ¬ a.toNat < 192 := by omega
      simp [decodeOperand, hone, htwo]

section Reading

variable {bytes front back : Bytes} {v : Int} {n : Nat}

/-- Every number that is read is in range. -/
theorem encodable_of_decodeOperand (h : decodeOperand bytes = some (v, n)) : Encodable v := by
  obtain ⟨form, rest, -, hform, -⟩ := decodeOperand_eq_some_iff.mp h
  exact hform.encodable

theorem decodeOperand_length (h : decodeOperand bytes = some (v, n)) : 0 < n ∧ n ≤ bytes.length := by
  obtain ⟨form, rest, rfl, hform, rfl⟩ := decodeOperand_eq_some_iff.mp h
  exact ⟨hform.length_pos, by simp⟩

/-- A number is read from the bytes it takes, and from no fewer. -/
theorem decodeOperand_append (h : decodeOperand (front ++ back) = some (v, n)) :
    (decodeOperand front = some (v, n) ∧ n ≤ front.length) ∨ decodeOperand front = none := by
  cases hfront : decodeOperand front with
  | none => exact .inr rfl
  | some p =>
    -- what is read from the first part is still read when more follows
    obtain ⟨form, rest, rfl, hform, hlength⟩ := decodeOperand_eq_some_iff.mp hfront
    have hsame : decodeOperand (form ++ (rest ++ back)) = some p :=
      decodeOperand_eq_some_iff.mpr ⟨form, _, rfl, hform, hlength⟩
    rw [← List.append_assoc, h] at hsame
    cases hsame
    exact .inl ⟨rfl, (decodeOperand_length hfront).2⟩

/-- **What is read depends only on the bytes of the number.** -/
theorem decodeOperand_take (h : decodeOperand bytes = some (v, n)) {other : Bytes}
    (hsame : other.take n = bytes.take n) : decodeOperand other = some (v, n) := by
  obtain ⟨form, rest, rfl, hform, rfl⟩ := decodeOperand_eq_some_iff.mp h
  rw [List.take_left] at hsame
  refine decodeOperand_eq_some_iff.mpr ⟨form, other.drop form.length, ?_, hform, rfl⟩
  calc other = other.take form.length ++ other.drop form.length := (List.take_append_drop _ _).symm
    _ = form ++ other.drop form.length := by rw [hsame]

end Reading

/-! ## Writing -/

section Writing

variable {bytes : Bytes} {v : Int}

/-- **A number can be written exactly if it is in range.** -/
theorem encodeOperand_ok_iff : (∃ bytes, encodeOperand v = .ok bytes) ↔ Encodable v := by
  unfold encodeOperand
  by_cases h₁ : -64 ≤ v ∧ v ≤ 63
  · rw [if_pos h₁]
    refine ⟨fun _ => ?_, fun _ => ⟨_, rfl⟩⟩
    unfold Encodable operandMin operandMax
    omega
  · rw [if_neg h₁]
    by_cases h₂ : -8192 ≤ v ∧ v ≤ 8191
    · rw [if_pos h₂]
      refine ⟨fun _ => ?_, fun _ => ⟨_, rfl⟩⟩
      unfold Encodable operandMin operandMax
      omega
    · rw [if_neg h₂]
      by_cases h₃ : Encodable v
      · rw [if_pos h₃]
        exact ⟨fun _ => h₃, fun _ => ⟨_, rfl⟩⟩
      · rw [if_neg h₃]
        exact ⟨fun ⟨_, h⟩ => (nomatch h), fun h => absurd h h₃⟩

/-- **What is written is a form of the number.** -/
theorem encodeOperand_form (h : encodeOperand v = .ok bytes) : OperandForm bytes v := by
  unfold encodeOperand at h
  by_cases h₁ : -64 ≤ v ∧ v ≤ 63
  · rw [if_pos h₁, Except.ok.injEq] at h
    subst h
    have ha := toNat_byteOf 0 (v % 128).toNat
    have hform := OperandForm.one (byteOf 0 (v % 128).toNat) (by omega)
    have hbits : (byteOf 0 (v % 128).toNat).toNat = (v % 128).toNat := by omega
    have hvalue : signedIn 64 (v % 128).toNat = v := signedIn_emod rfl (by omega) (by omega)
    rwa [hbits, hvalue] at hform
  · rw [if_neg h₁] at h
    by_cases h₂ : -8192 ≤ v ∧ v ≤ 8191
    · rw [if_pos h₂, Except.ok.injEq] at h
      subst h
      generalize hn : 32768 + (v % 16384).toNat = n
      have ha := toNat_byteOf 1 n
      have hb := toNat_byteOf 0 n
      have hform := OperandForm.two (byteOf 1 n) (byteOf 0 n) (by omega)
      have hbits : ((byteOf 1 n).toNat - 128) * 256 + (byteOf 0 n).toNat = (v % 16384).toNat := by omega
      have hvalue : signedIn 8192 (v % 16384).toNat = v := signedIn_emod rfl (by omega) (by omega)
      rwa [hbits, hvalue] at hform
    · rw [if_neg h₂] at h
      by_cases h₃ : Encodable v
      · rw [if_pos h₃, Except.ok.injEq] at h
        subst h
        unfold Encodable operandMin operandMax at h₃
        generalize hn : 3221225472 + (v % 1073741824).toNat = n
        have ha := toNat_byteOf 3 n
        have hb := toNat_byteOf 2 n
        have hc := toNat_byteOf 1 n
        have hd := toNat_byteOf 0 n
        have hform := OperandForm.four (byteOf 3 n) (byteOf 2 n) (byteOf 1 n) (byteOf 0 n) (by omega)
        have hbits : ((((byteOf 3 n).toNat - 192) * 256 + (byteOf 2 n).toNat) * 256
            + (byteOf 1 n).toNat) * 256 + (byteOf 0 n).toNat = (v % 1073741824).toNat := by omega
        have hvalue : signedIn 536870912 (v % 1073741824).toNat = v := signedIn_emod rfl (by omega) (by omega)
        rwa [hbits, hvalue] at hform
      · rw [if_neg h₃] at h
        cases h

/-- **A number is found again from its bytes**, whatever follows them. -/
theorem decodeOperand_encodeOperand (h : encodeOperand v = .ok bytes) (rest : Bytes) :
    decodeOperand (bytes ++ rest) = some (v, bytes.length) :=
  decodeOperand_eq_some_iff.mpr ⟨bytes, rest, rfl, encodeOperand_form h, rfl⟩

/-- **What is written is the shortest form of the number.** -/
theorem OperandForm.shortest {form : Bytes} (h : OperandForm form v) (hbytes : encodeOperand v = .ok bytes) :
    bytes.length ≤ form.length := by
  unfold encodeOperand at hbytes
  by_cases h₁ : -64 ≤ v ∧ v ≤ 63
  · rw [if_pos h₁, Except.ok.injEq] at hbytes
    subst hbytes
    exact h.length_pos
  · rw [if_neg h₁] at hbytes
    by_cases h₂ : -8192 ≤ v ∧ v ≤ 8191
    · rw [if_pos h₂, Except.ok.injEq] at hbytes
      subst hbytes
      -- a form of one byte is too small
      rcases h.range with ⟨-, hrange⟩ | ⟨hlength, -⟩ | ⟨hlength, -⟩
      · exact absurd hrange h₁
      · exact Nat.le_of_eq hlength.symm
      · rw [hlength]; exact (by decide : 2 ≤ 4)
    · rw [if_neg h₂, if_pos h.encodable, Except.ok.injEq] at hbytes
      subst hbytes
      rcases h.range with ⟨-, hrange⟩ | ⟨-, hrange⟩ | ⟨hlength, -⟩
      · exact absurd hrange h₁
      · exact absurd hrange h₂
      · exact Nat.le_of_eq hlength.symm

end Writing

/-! ## Both -/

/-- **Writing and reading numbers belong together.** -/
theorem decodeOperand_exact :
    -- A number in range is written, and found again whatever follows.
    (∀ v, Encodable v → ∃ bytes, encodeOperand v = .ok bytes ∧
      ∀ rest, decodeOperand (bytes ++ rest) = some (v, bytes.length)) ∧
    -- A number that is read is in range and takes one of the bytes at least. It depends on the bytes it
    -- takes alone, and its written form takes no more.
    (∀ bytes v n, decodeOperand bytes = some (v, n) →
      Encodable v ∧ 1 ≤ n ∧ n ≤ bytes.length ∧
      (∀ other : Bytes, other.take n = bytes.take n → decodeOperand other = some (v, n)) ∧
      ∃ short, encodeOperand v = .ok short ∧ short.length ≤ n) := by
  constructor
  · intro v hv
    obtain ⟨bytes, hbytes⟩ := encodeOperand_ok_iff.mpr hv
    exact ⟨bytes, hbytes, decodeOperand_encodeOperand hbytes⟩
  · intro bytes v n h
    have hencodable := encodable_of_decodeOperand h
    obtain ⟨hpos, hle⟩ := decodeOperand_length h
    refine ⟨hencodable, hpos, hle, fun other hsame => decodeOperand_take h hsame, ?_⟩
    obtain ⟨short, hshort⟩ := encodeOperand_ok_iff.mpr hencodable
    obtain ⟨form, rest, -, hform, rfl⟩ := decodeOperand_eq_some_iff.mp h
    exact ⟨short, hshort, hform.shortest hshort⟩

/-- The smallest number of four bytes is found before a stray byte. A small number that was given four bytes
is read in spite of that, from whatever starts with them, and is written in one. -/
theorem decodeOperand_exact_padded :
    (∃ bytes, encodeOperand (-536870912) = .ok bytes ∧
      decodeOperand (bytes ++ [7]) = some (-536870912, bytes.length)) ∧
    decodeOperand [0xff, 0xff, 0xff, 0xfe, 0x80] = some (-2, 4) ∧
    decodeOperand [0xff, 0xff, 0xff, 0xfe] = some (-2, 4) ∧
    ∃ short, encodeOperand (-2) = .ok short ∧ short.length ≤ 4 := by
  obtain ⟨hwritten, hread⟩ := decodeOperand_exact
  have hpadded : decodeOperand [0xff, 0xff, 0xff, 0xfe, 0x80] = some (-2, 4) := by decide
  obtain ⟨-, -, -, hsame, hshort⟩ := hread _ _ _ hpadded
  obtain ⟨bytes, hbytes, hfound⟩ := hwritten (-536870912) (by decide)
  exact ⟨⟨bytes, hbytes, hfound [7]⟩, hpadded, hsame [0xff, 0xff, 0xff, 0xfe] (by decide), hshort⟩

end DisBackend
