import DisBackend.Proofs.Outcome

/-!
# `Proofs.Descriptor` — what a descriptor says

A map has a bit for each word. Marking a word sets its bit and no other, and so the descriptor of an area
marks just the words that were said to be pointers.

## Contents

* `TypeDescriptor.hasWord_markWord` — the bits of a map after a word is marked;
* `TypeDescriptor.setPointers_ok`, `TypeDescriptor.setPointers_total` — marking several words;
* `describe_ok`, `describe_total`, `describe_marks`, `mem_pointerOffsets_of_describe` — the descriptor of an
  area has its id and size, and marks its pointers.
-/

namespace DisBackend
namespace TypeDescriptor

/-! ## Maps -/

/-- Zero bytes at the end of a map do not show. -/
theorem getD_append_zeros (map : List UInt8) (count n : Nat) :
    (map ++ List.replicate count 0).getD n 0 = map.getD n 0 := by
  rw [List.getD_eq_getElem?_getD, List.getD_eq_getElem?_getD, List.getElem?_append]
  by_cases hn : n < map.length
  · rw [if_pos hn]
  · rw [if_neg hn, List.getElem?_eq_none (Nat.le_of_not_lt hn), List.getElem?_replicate]
    split <;> rfl

theorem getD_extendTo (length : Nat) (map : List UInt8) (n : Nat) :
    (extendTo length map).getD n 0 = map.getD n 0 :=
  getD_append_zeros map _ n

theorem length_extendTo (length : Nat) (map : List UInt8) : length ≤ (extendTo length map).length := by
  unfold extendTo
  rw [List.length_append, List.length_replicate]
  omega

theorem length_markWord (map : List UInt8) (word : Nat) :
    (markWord map word).length = max map.length (word / 8 + 1) := by
  unfold markWord extendTo
  rw [List.length_modify, List.length_append, List.length_replicate]
  omega

/-- The bit for one word of a byte. -/
theorem testBit_mask {n m : Nat} (hn : n < 8) (hm : m < 8) :
    (UInt8.ofNat (1 <<< (7 - n))).toNat.testBit (7 - m) = decide (m = n) := by
  have hlt : 1 <<< (7 - n) < 256 := by
    rw [Nat.one_shiftLeft]
    exact Nat.pow_lt_pow_right (m := 7 - n) (n := 8) (by decide) (by omega)
  rw [UInt8.toNat_ofNat', Nat.mod_eq_of_lt hlt, Nat.one_shiftLeft, Nat.testBit_two_pow, decide_eq_decide]
  omega

/-- **Marking a word** sets its bit and no other. -/
theorem hasWord_markWord (map : List UInt8) (word other : Nat) :
    hasWord (markWord map word) other = (hasWord map other || decide (other = word)) := by
  unfold hasWord markWord
  have hlength := length_extendTo (word / 8 + 1) map
  rw [List.getD_eq_getElem?_getD, List.getElem?_modify]
  by_cases hbyte : word / 8 = other / 8
  · -- the same byte: the bits of the old one, and the new one
    have hlt : other / 8 < (extendTo (word / 8 + 1) map).length := by omega
    have hold := getD_extendTo (word / 8 + 1) map (other / 8)
    rw [List.getD_eq_getElem?_getD, List.getElem?_eq_getElem hlt, Option.getD_some] at hold
    have hbit := testBit_mask (Nat.mod_lt word (by decide : 0 < 8)) (Nat.mod_lt other (by decide : 0 < 8))
    simp only [if_pos hbyte]
    rw [List.getElem?_eq_getElem hlt, Option.map_eq_map, Option.map_some, Option.getD_some, hold,
      UInt8.toNat_or, Nat.testBit_or, hbit]
    congr 1
    rw [decide_eq_decide]
    omega
  · have hne : other ≠ word := fun h => hbyte (by rw [h])
    simp only [if_neg hbyte, id_map']
    rw [← List.getD_eq_getElem?_getD, getD_extendTo, decide_eq_false hne, Bool.or_false]

/-- Of words to be marked, all are, and no other. -/
theorem setPointers_ok {d d' : TypeDescriptor} {offsets : List Int}
    (h : d.setPointers offsets = .ok d') :
    d'.id = d.id ∧ d'.size = d.size ∧
      ∀ word : Nat, hasWord d'.map word = true ↔
        hasWord d.map word = true ∨ wordBytes * (word : Int) ∈ offsets := by
  induction offsets generalizing d with
  | nil => cases h; simp
  | cons offset offsets ih =>
    simp only [setPointers, except_bind_ok_iff] at h
    obtain ⟨d₁, hd₁, hrest⟩ := h
    obtain ⟨hid, hsize, hmarks⟩ := ih hrest
    unfold setPointer at hd₁
    by_cases hpos : 0 ≤ offset ∧ offset % wordBytes = 0
    · rw [if_pos hpos, Except.ok.injEq] at hd₁
      subst hd₁
      refine ⟨hid, hsize, fun word => ?_⟩
      have hword : word = (offset / wordBytes).toNat ↔ wordBytes * (word : Int) = offset := by
        unfold wordBytes at *
        omega
      rw [hmarks, hasWord_markWord, Bool.or_eq_true, decide_eq_true_iff, hword, List.mem_cons, or_assoc]
    · rw [if_neg hpos] at hd₁
      cases hd₁

/-- Words can be marked. -/
theorem setPointers_total {d : TypeDescriptor} {offsets : List Int}
    (h : ∀ offset ∈ offsets, 0 ≤ offset ∧ offset % wordBytes = 0) : ∃ d', d.setPointers offsets = .ok d' := by
  induction offsets generalizing d with
  | nil => exact ⟨d, rfl⟩
  | cons offset offsets ih =>
    have hoffset : d.setPointer offset = .ok _ := if_pos (h offset List.mem_cons_self)
    unfold setPointers
    rw [hoffset]
    exact ih fun o ho => h o (List.mem_cons_of_mem _ ho)

theorem hasWord_replicate (length word : Nat) : hasWord (List.replicate length 0) word = false := by
  unfold hasWord
  rw [List.getD_eq_getElem?_getD, List.getElem?_replicate]
  split <;> simp

/-- A word that is marked is one of the map. -/
theorem lt_of_hasWord {map : List UInt8} {word : Nat} (h : hasWord map word = true) :
    word < 8 * map.length := by
  by_contra hlt
  have hnone : map[word / 8]? = none := List.getElem?_eq_none (by omega)
  unfold hasWord at h
  rw [List.getD_eq_getElem?_getD, hnone] at h
  simp at h

theorem mem_pointerOffsets {d : TypeDescriptor} {offset : Int} :
    offset ∈ d.pointerOffsets ↔ ∃ word : Nat, hasWord d.map word = true ∧ wordBytes * word = offset := by
  simp only [pointerOffsets, List.mem_map, List.mem_filter, List.mem_range]
  constructor
  · rintro ⟨word, ⟨-, hword⟩, hoffset⟩
    exact ⟨word, hword, by rw [Int.mul_comm]; exact hoffset⟩
  · rintro ⟨word, hword, hoffset⟩
    exact ⟨word, ⟨lt_of_hasWord hword, hword⟩, by rw [Int.mul_comm]; exact hoffset⟩

end TypeDescriptor

/-! ## Areas -/

theorem headerBytes_eq : headerBytes = wordBytes * ((8 : Nat) : Int) := rfl

theorem zero_eq_words : (0 : Int) = wordBytes * ((0 : Nat) : Int) := rfl

section Describe

variable {id size base : Int} {words : List Bool} {d : TypeDescriptor}

/-- **The descriptor of an area** has the id and the size asked for. -/
theorem describe_ok (h : describe id size base words = .ok d) : d.id = id ∧ d.size = size := by
  simp only [describe, TypeDescriptor.blank, except_bind_ok_iff, except_pure_ok_iff] at h
  obtain ⟨_, ⟨_, -, rfl⟩, hset⟩ := h
  obtain ⟨hid, hsize, -⟩ := TypeDescriptor.setPointers_ok hset
  exact ⟨hid, hsize⟩

theorem mem_pointerOffsetsFrom {offset : Int} :
    offset ∈ pointerOffsetsFrom base words ↔
      ∃ k : Nat, words[k]? = some true ∧ wordOffset base k = offset := by
  simp only [pointerOffsetsFrom, List.mem_map, List.mem_filter, Prod.exists,
    List.mem_zipIdx_iff_getElem?]
  constructor
  · rintro ⟨b, k, ⟨hk, hb⟩, rfl⟩
    subst hb
    exact ⟨k, hk, rfl⟩
  · rintro ⟨k, hk, rfl⟩
    exact ⟨true, k, ⟨hk, rfl⟩, rfl⟩

/-- The pointers of an area that starts at a word are words. -/
theorem words_of_pointerOffsetsFrom (words : List Bool) {first : Nat}
    (hbase : base = wordBytes * (first : Int)) :
    ∀ offset ∈ pointerOffsetsFrom base words, 0 ≤ offset ∧ offset % wordBytes = 0 := by
  intro offset hoffset
  obtain ⟨k, -, rfl⟩ := mem_pointerOffsetsFrom.mp hoffset
  rw [hbase]
  unfold wordOffset wordBytes
  omega

/-- **An area that is not too large and starts at a word can be described.** -/
theorem describe_total (id : Int) (words : List Bool) {first : Nat} (hbase : base = wordBytes * (first : Int))
    (hsize : FitsInt32 (max size 0 + wordBytes)) : ∃ d, describe id size base words = .ok d := by
  obtain ⟨d, hd⟩ := TypeDescriptor.setPointers_total
    (d := ⟨id, size, List.replicate (((max size 0 + wordBytes - 1) / wordBytes + 7) / 8).toNat 0⟩)
    (words_of_pointerOffsetsFrom words hbase)
  refine ⟨d, except_bind_ok_iff.mpr ⟨_, except_bind_ok_iff.mpr ⟨_, if_pos hsize, rfl⟩, hd⟩⟩

/-- **The pointers that the descriptor of an area gives** are those of the area, if it starts at a word. -/
theorem mem_pointerOffsets_of_describe (h : describe id size base words = .ok d) {first : Nat}
    (hbase : base = wordBytes * (first : Int)) {offset : Int} :
    offset ∈ d.pointerOffsets ↔ ∃ k : Nat, words[k]? = some true ∧ wordOffset base k = offset := by
  simp only [describe, TypeDescriptor.blank, except_bind_ok_iff, except_pure_ok_iff] at h
  obtain ⟨_, ⟨_, -, rfl⟩, hset⟩ := h
  obtain ⟨-, -, hmarks⟩ := TypeDescriptor.setPointers_ok hset
  rw [TypeDescriptor.mem_pointerOffsets, ← mem_pointerOffsetsFrom]
  constructor
  · rintro ⟨word, hword, rfl⟩
    rcases (hmarks word).mp hword with hfalse | hmem
    · rw [TypeDescriptor.hasWord_replicate] at hfalse
      cases hfalse
    · exact hmem
  · intro hmem
    obtain ⟨k, -, rfl⟩ := mem_pointerOffsetsFrom.mp hmem
    have hword : wordBytes * ((first + k : Nat) : Int) = wordOffset base k := by
      rw [hbase]
      unfold wordOffset wordBytes
      omega
    exact ⟨first + k, (hmarks _).mpr (.inr (hword ▸ hmem)), hword⟩

/-- **The descriptor of an area marks its pointers,** if the area starts at a word. -/
theorem describe_marks (h : describe id size base words = .ok d) {first : Nat}
    (hbase : base = wordBytes * (first : Int)) {k : Nat} {pointer : Bool}
    (hk : words[k]? = some pointer) : d.hasPointer (wordOffset base k) = pointer := by
  simp only [describe, TypeDescriptor.blank, except_bind_ok_iff, except_pure_ok_iff] at h
  obtain ⟨_, ⟨_, -, rfl⟩, hset⟩ := h
  obtain ⟨-, -, hmarks⟩ := TypeDescriptor.setPointers_ok hset
  have hword : (wordOffset base k).tdiv wordBytes = ((first + k : Nat) : Int) := by
    rw [hbase]
    unfold wordOffset wordBytes
    rw [Int.tdiv_eq_ediv_of_nonneg] <;> omega
  show (decide (0 ≤ (wordOffset base k).tdiv wordBytes) &&
    TypeDescriptor.hasWord d.map ((wordOffset base k).tdiv wordBytes).toNat) = pointer
  rw [hword, Int.toNat_natCast, Bool.eq_iff_iff, Bool.and_eq_true, hmarks,
    TypeDescriptor.hasWord_replicate, mem_pointerOffsetsFrom]
  constructor
  · rintro ⟨-, hfalse | ⟨j, hj, hoffset⟩⟩
    · cases hfalse
    · have hjk : j = k := by
        rw [hbase] at hoffset
        unfold wordOffset wordBytes at hoffset
        omega
      subst hjk
      rw [hk, Option.some.injEq] at hj
      exact hj
  · rintro rfl
    refine ⟨decide_eq_true (by omega), .inr ⟨k, hk, ?_⟩⟩
    rw [hbase]
    unfold wordOffset wordBytes
    omega

end Describe
end DisBackend
