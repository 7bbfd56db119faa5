import Mathlib.Data.List.DropRight
import Mathlib.Data.List.Sort
import DisBackend.Proofs.Descriptor

/-!
# `Proofs.Pointers` — maps as sets of offsets

The map of a descriptor stands for a set of words. Marking a word adds it to the set, the list of pointers is
the set in increasing order, and zero bytes at the end say nothing: without them the map of a set is the
shortest there is. An area hands out its words in increasing order, and so its descriptor lists what was
handed out as a pointer, in the order in which it was handed out. One frame has no descriptor: the largest
that can be handed out, whose size cannot be rounded up any more.

## Contents

* `mem_pointerOffsets_iff`, `pairwise_pointerOffsets` — the list of pointers;
* `hasPointer_setPointers`, `length_setPointers` — marking words;
* `hasWord_trimMap`, `eq_trimMap_append` — zero bytes at the end;
* `TypeDescriptor.MapLaws` — maps as sets;
* `TypeDescriptor.Describes`, `describe_exact` — the descriptor of an area;
* `allocateEach` — handing out word after word;
* `Frame.descriptor_exact`, `Frame.descriptor_overflow`, `ModuleData.descriptor_exact` — frames and module
  data;
* `pointer_maps_exact` — all of it.
-/

namespace DisBackend
namespace TypeDescriptor

variable {d d' : TypeDescriptor} {offset : Int} {offsets : List Int}

/-! ## The list of pointers -/

theorem hasPointer_of_nonneg (d : TypeDescriptor) (h : 0 ≤ offset) :
    d.hasPointer offset = hasWord d.map (offset / wordBytes).toNat := by
  have hword : 0 ≤ offset / wordBytes := Int.ediv_nonneg h (by decide)
  simp [hasPointer, Int.tdiv_eq_ediv_of_nonneg h, hword]

/-- **The pointers that are listed** are the words that are marked. -/
theorem mem_pointerOffsets_iff :
    offset ∈ d.pointerOffsets ↔ 0 ≤ offset ∧ offset % wordBytes = 0 ∧ d.hasPointer offset = true := by
  rw [mem_pointerOffsets]
  constructor
  · rintro ⟨word, hword, rfl⟩
    have hpos : 0 ≤ wordBytes * (word : Int) := by unfold wordBytes; omega
    have hindex : (wordBytes * (word : Int) / wordBytes).toNat = word := by unfold wordBytes; omega
    refine ⟨hpos, by simp, ?_⟩
    rw [d.hasPointer_of_nonneg hpos, hindex]
    exact hword
  · rintro ⟨hpos, haligned, hpointer⟩
    rw [d.hasPointer_of_nonneg hpos] at hpointer
    refine ⟨_, hpointer, ?_⟩
    unfold wordBytes at *
    omega

/-- They are listed in increasing order. -/
theorem pairwise_pointerOffsets (d : TypeDescriptor) : d.pointerOffsets.Pairwise (· < ·) := by
  have hwords : ((List.range (8 * d.map.length)).filter (hasWord d.map)).Pairwise (· < ·) :=
    List.pairwise_lt_range.filter _
  refine hwords.map _ ?_
  intro m n hmn
  unfold wordBytes
  omega

/-- Two descriptors list the same pointers if the same words are marked. -/
theorem pointerOffsets_eq_iff :
    d.pointerOffsets = d'.pointerOffsets ↔ ∀ word, hasWord d.map word = hasWord d'.map word := by
  have hmarked (e : TypeDescriptor) (word : Nat) :
      wordBytes * (word : Int) ∈ e.pointerOffsets ↔ hasWord e.map word = true := by
    rw [mem_pointerOffsets]
    constructor
    · rintro ⟨word', hword', heq⟩
      have hsame : word' = word := by unfold wordBytes at heq; omega
      exact hsame ▸ hword'
    · intro hword
      exact ⟨word, hword, rfl⟩
  constructor
  · intro h word
    rw [Bool.eq_iff_iff, ← hmarked, ← hmarked, h]
  · intro h
    apply d.pairwise_pointerOffsets.eq_of_mem_iff d'.pairwise_pointerOffsets
    intro o
    rw [mem_pointerOffsets, mem_pointerOffsets]
    simp only [h]

/-- The pointers of a map of at most `2 ^ 25` bytes have 32-bit offsets. -/
theorem fitsInt32_of_mem_pointerOffsets (hmap : d.map.length ≤ 33554432) (h : offset ∈ d.pointerOffsets) :
    FitsInt32 offset := by
  obtain ⟨word, hword, rfl⟩ := mem_pointerOffsets.mp h
  have hlt := lt_of_hasWord hword
  unfold FitsInt32 wordBytes
  omega

/-! ## Marking words -/

/-- **Marking words adds them to the pointers,** and no others. -/
theorem hasPointer_setPointers (h : d.setPointers offsets = .ok d') (hpos : 0 ≤ offset)
    (haligned : offset % wordBytes = 0) :
    d'.hasPointer offset = true ↔ d.hasPointer offset = true ∨ offset ∈ offsets := by
  obtain ⟨-, -, hmarks⟩ := setPointers_ok h
  have hoffset : wordBytes * (((offset / wordBytes).toNat : Nat) : Int) = offset := by
    unfold wordBytes at *
    omega
  rw [d.hasPointer_of_nonneg hpos, d'.hasPointer_of_nonneg hpos, hmarks, hoffset]

/-- A map grows no further than the words that are marked ask for. -/
theorem length_setPointers (h : d.setPointers offsets = .ok d') :
    d.map.length ≤ d'.map.length ∧
      ∀ limit : Nat, d.map.length ≤ limit → (∀ o ∈ offsets, o < 64 * limit) → d'.map.length ≤ limit := by
  induction offsets generalizing d with
  | nil =>
    cases h
    exact ⟨Nat.le_refl _, fun _ hlimit _ => hlimit⟩
  | cons o offsets ih =>
    simp only [setPointers, except_bind_ok_iff] at h
    obtain ⟨d₁, hd₁, hrest⟩ := h
    obtain ⟨hgrows, hlimit⟩ := ih hrest
    unfold setPointer at hd₁
    by_cases hpos : 0 ≤ o ∧ o % wordBytes = 0
    · rw [if_pos hpos, Except.ok.injEq] at hd₁
      subst hd₁
      simp only [length_markWord] at hgrows hlimit
      refine ⟨by omega, ?_⟩
      intro limit hold hinside
      refine hlimit limit ?_ fun o' ho' => hinside o' (List.mem_cons_of_mem _ ho')
      have ho := hinside o List.mem_cons_self
      unfold wordBytes at *
      omega
    · rw [if_neg hpos] at hd₁
      cases hd₁

/-! ## Zero bytes at the end -/

theorem trimMap_append_zeros (map : List UInt8) :
    ∃ count, map = trimMap map ++ List.replicate count 0 := by
  refine ⟨(map.rtakeWhile (· == 0)).length, ?_⟩
  have hzeros : map.rtakeWhile (· == 0) = List.replicate (map.rtakeWhile (· == 0)).length 0 := by
    rw [List.eq_replicate_iff]
    refine ⟨rfl, ?_⟩
    intro byte hbyte
    simpa using List.mem_rtakeWhile_imp hbyte
  rw [← hzeros]
  exact List.rdropWhile_append_rtakeWhile.symm

/-- **Zero bytes at the end mark nothing.** -/
theorem hasWord_trimMap (map : List UInt8) (word : Nat) : hasWord (trimMap map) word = hasWord map word := by
  obtain ⟨count, hmap⟩ := trimMap_append_zeros map
  conv => rhs; rw [hmap]
  rw [hasWord, hasWord, getD_append_zeros]

theorem trimMap_trimMap (map : List UInt8) : trimMap (trimMap map) = trimMap map :=
  List.rdropWhile_idempotent (· == 0) map

/-- The words of a map determine its bytes, as far as these are not zero. -/
theorem getD_eq_of_hasWord {map map' : List UInt8} (h : ∀ word, hasWord map word = hasWord map' word)
    (n : Nat) : map.getD n 0 = map'.getD n 0 := by
  apply UInt8.toNat_inj.mp
  apply Nat.eq_of_testBit_eq
  intro bit
  by_cases hbit : bit < 8
  · -- bit number `bit` of the byte belongs to word `7 - bit` of its eight
    have hword := h (8 * n + (7 - bit))
    have hbyte : (8 * n + (7 - bit)) / 8 = n := by omega
    have hplace : 7 - (8 * n + (7 - bit)) % 8 = bit := by omega
    rwa [hasWord, hasWord, hbyte, hplace] at hword
  · have hsmall (byte : UInt8) : byte.toNat.testBit bit = false := by
      apply Nat.testBit_lt_two_pow
      exact Nat.lt_of_lt_of_le byte.toNat_lt (Nat.pow_le_pow_right (by decide) (Nat.le_of_not_lt hbit))
    rw [hsmall, hsmall]

/-- **A map with the same words is the trimmed map, and zero bytes.** So none is shorter. -/
theorem eq_trimMap_append {map map' : List UInt8} (h : ∀ word, hasWord map' word = hasWord map word) :
    (trimMap map).length ≤ map'.length ∧
      map' = trimMap map ++ List.replicate (map'.length - (trimMap map).length) 0 := by
  have hbytes (n : Nat) : map'.getD n 0 = (trimMap map).getD n 0 := by
    apply getD_eq_of_hasWord
    intro word
    rw [h, hasWord_trimMap]
  have hlength : (trimMap map).length ≤ map'.length := by
    by_contra hshort
    have hne : trimMap map ≠ [] := by
      intro hnil
      rw [hnil] at hshort
      exact hshort (Nat.zero_le _)
    -- the last byte of the trimmed map is not zero, but beyond the other map
    have hlast : ¬ ((trimMap map).getLast hne == 0) = true := List.rdropWhile_last_not (· == 0) map hne
    have hbyte := hbytes ((trimMap map).length - 1)
    have hbeyond : map'.length ≤ (trimMap map).length - 1 := by omega
    rw [List.getD_eq_getElem?_getD, List.getD_eq_getElem?_getD, List.getElem?_eq_none hbeyond,
      ← List.getLast?_eq_getElem?, List.getLast?_eq_getLast_of_ne_nil hne] at hbyte
    apply hlast
    simpa using hbyte.symm
  refine ⟨hlength, ?_⟩
  apply List.ext_getElem
  · simp
    omega
  · intro n hn hn'
    have hbyte := hbytes n
    rw [← getD_append_zeros (trimMap map) (map'.length - (trimMap map).length)] at hbyte
    rwa [List.getD_eq_getElem?_getD, List.getD_eq_getElem?_getD, List.getElem?_eq_getElem hn,
      List.getElem?_eq_getElem hn'] at hbyte

/-! ## Maps as sets -/

/-- `offset` is the place of a word, as a 32-bit number. -/
def IsWordPlace (offset : Int) : Prop := 0 ≤ offset ∧ offset % wordBytes = 0 ∧ FitsInt32 offset

instance (offset : Int) : Decidable (IsWordPlace offset) :=
  inferInstanceAs (Decidable (_ ∧ _ ∧ _))

/-- The map of a descriptor stands for a set of words. -/
structure MapLaws (d : TypeDescriptor) : Prop where
  /-- Marking words adds them to the set. -/
  mark : ∀ offsets, (∀ o ∈ offsets, IsWordPlace o) →
    ∃ d', d.setPointers offsets = .ok d' ∧ d'.id = d.id ∧ d'.size = d.size ∧ d'.map.length ≤ 33554432 ∧
      ∀ o, IsWordPlace o → (d'.hasPointer o = true ↔ d.hasPointer o = true ∨ o ∈ offsets)
  /-- The list of pointers is the set in increasing order. -/
  increasing : d.pointerOffsets.Pairwise (· < ·)
  listed : ∀ o, o ∈ d.pointerOffsets ↔ 0 ≤ o ∧ o % wordBytes = 0 ∧ d.hasPointer o = true
  fits : ∀ o ∈ d.pointerOffsets, FitsInt32 o
  /-- Trimming changes nothing but the length of the map, -/
  trim_id : d.trim.id = d.id
  trim_size : d.trim.size = d.size
  trim_trim : d.trim.trim = d.trim
  trim_hasPointer : ∀ o, d.trim.hasPointer o = d.hasPointer o
  trim_listed : d.trim.pointerOffsets = d.pointerOffsets
  /-- and there is no shorter map of the set. -/
  trim_shortest : ∀ d' : TypeDescriptor, d'.pointerOffsets = d.pointerOffsets →
    d.trim.map.length ≤ d'.map.length ∧
      d'.map = d.trim.map ++ List.replicate (d'.map.length - d.trim.map.length) 0

/-- **Maps are sets of words.** -/
theorem mapLaws (hmap : d.map.length ≤ 33554432) : d.MapLaws where
  mark := by
    intro offsets hplaces
    obtain ⟨d', hd'⟩ := d.setPointers_total fun o ho => ⟨(hplaces o ho).1, (hplaces o ho).2.1⟩
    obtain ⟨hid, hsize, -⟩ := setPointers_ok hd'
    refine ⟨d', hd', hid, hsize, ?_, fun o ho => hasPointer_setPointers hd' ho.1 ho.2.1⟩
    apply (length_setPointers hd').2 _ hmap
    intro o ho
    have hfits := (hplaces o ho).2.2
    unfold FitsInt32 at hfits
    omega
  increasing := d.pairwise_pointerOffsets
  listed _ := mem_pointerOffsets_iff
  fits _ := fitsInt32_of_mem_pointerOffsets hmap
  trim_id := rfl
  trim_size := rfl
  trim_trim := by
    simp only [trim, trimMap_trimMap]
  trim_hasPointer o := by
    simp only [trim, hasPointer, hasWord_trimMap]
  trim_listed := by
    apply pointerOffsets_eq_iff.mpr
    exact hasWord_trimMap d.map
  trim_shortest := by
    intro d' hsame
    apply eq_trimMap_append
    exact pointerOffsets_eq_iff.mp hsame

/-- The descriptor is one of `size` bytes with exactly these pointers. -/
structure Describes (d : TypeDescriptor) (id size : Int) (pointers : List Int) : Prop where
  id_eq : d.id = id
  size_eq : d.size = size
  pointers_eq : d.pointerOffsets = pointers
  /-- The map has a bit for each word, and no byte more than that. -/
  length_eq : (d.map.length : Int) = (size + 63) / 64

end TypeDescriptor

/-! ## Areas -/

section Describe

variable {id size base : Int} {words : List Bool} {d : TypeDescriptor}

theorem pairwise_pointerOffsetsFrom (base : Int) (words : List Bool) :
    (pointerOffsetsFrom base words).Pairwise (· < ·) := by
  have hindices : words.zipIdx.Pairwise fun p q => p.2 < q.2 := by
    rw [List.pairwise_iff_getElem]
    intro i j hi hj hij
    simpa using hij
  refine (hindices.filter _).map _ ?_
  intro p q hpq
  show wordOffset base p.2 < wordOffset base q.2
  unfold wordOffset wordBytes
  omega

/-- **The descriptor of an area lists its pointers** in the order of the words. -/
theorem pointerOffsets_describe (h : describe id size base words = .ok d) {first : Nat}
    (hbase : base = wordBytes * (first : Int)) : d.pointerOffsets = pointerOffsetsFrom base words := by
  apply d.pairwise_pointerOffsets.eq_of_mem_iff (pairwise_pointerOffsetsFrom base words)
  intro offset
  rw [mem_pointerOffsets_of_describe h hbase, mem_pointerOffsetsFrom]

/-- **The map of an area** has a bit for each word of the area, and no byte more than that. -/
theorem length_map_describe (h : describe id size base words = .ok d)
    (hinside : wordOffset base words.length ≤ size) (hsize : 0 ≤ size) :
    (d.map.length : Int) = (size + 63) / 64 := by
  simp only [describe, TypeDescriptor.blank, except_bind_ok_iff, except_pure_ok_iff] at h
  obtain ⟨_, ⟨total, htotal, rfl⟩, hset⟩ := h
  obtain ⟨-, rfl⟩ := checkedAdd_ok_iff.mp htotal
  obtain ⟨hgrows, hlimit⟩ := TypeDescriptor.length_setPointers hset
  have hblank : ((((max size 0 + wordBytes - 1) / wordBytes + 7) / 8).toNat : Int) = (size + 63) / 64 := by
    unfold wordBytes
    omega
  simp only [List.length_replicate] at hgrows hlimit
  have hle := hlimit _ (Nat.le_refl _) (by
    intro offset hoffset
    obtain ⟨k, hk, rfl⟩ := mem_pointerOffsetsFrom.mp hoffset
    have hlt : k < words.length := (List.getElem?_eq_some_iff.mp hk).1
    rw [hblank]
    unfold wordOffset wordBytes at *
    omega)
  omega

/-- **An area has a descriptor** unless rounding up its size overflows. -/
theorem describe_exact (id : Int) (words : List Bool) {first : Nat} (hbase : base = wordBytes * (first : Int))
    (hinside : wordOffset base words.length ≤ size) (hsize : 0 ≤ size)
    (hfits : FitsInt32 (size + wordBytes)) :
    ∃ d, describe id size base words = .ok d ∧ d.Describes id size (pointerOffsetsFrom base words) := by
  rw [← Int.max_eq_left hsize] at hfits
  obtain ⟨d, hd⟩ := describe_total id words hbase hfits
  obtain ⟨hid, hdsize⟩ := describe_ok hd
  exact ⟨d, hd, hid, hdsize, pointerOffsets_describe hd hbase, length_map_describe hd hinside hsize⟩

theorem describe_overflow (id : Int) (hsize : 0 ≤ size) (hfits : ¬ FitsInt32 (size + wordBytes)) :
    describe id size base words = .error .addOverflow := by
  rw [← Int.max_eq_left hsize] at hfits
  simp only [describe, TypeDescriptor.blank, checkedAdd, if_neg hfits]
  rfl

/-- Nothing before the area is marked. -/
theorem hasPointer_before (h : d.pointerOffsets = pointerOffsetsFrom base words) (hbase : 0 < base)
    {offset : Int} (hbefore : offset < base) : d.hasPointer offset = false := by
  by_contra hpointer
  simp only [TypeDescriptor.hasPointer, Bool.not_eq_false, Bool.and_eq_true, decide_eq_true_eq] at hpointer
  obtain ⟨hpos, hword⟩ := hpointer
  -- the word that holds the offset would be one of the pointers, and these lie in the area
  have hmem := TypeDescriptor.mem_pointerOffsets.mpr ⟨_, hword, rfl⟩
  rw [h] at hmem
  obtain ⟨k, -, hk⟩ := mem_pointerOffsetsFrom.mp hmem
  rw [Int.toNat_of_nonneg hpos] at hk
  have hinside : base ≤ wordBytes * offset.tdiv wordBytes := by
    unfold wordOffset wordBytes at *
    omega
  by_cases hneg : 0 ≤ offset
  · rw [Int.tdiv_eq_ediv_of_nonneg hneg] at hinside
    unfold wordBytes at hinside
    omega
  · have hle := Int.tdiv_nonneg (show 0 ≤ -offset by omega) (show 0 ≤ wordBytes by decide)
    rw [Int.neg_tdiv] at hle
    unfold wordBytes at *
    omega

end Describe

/-! ## Handing out words -/

/-- Serves requests for a word one after the other: the offsets of the words, and the area then. -/
def allocateEach {α β : Type} (allocate : α → β → Except Fault (Int × α)) (area : α) :
    List β → Except Fault (List Int × α)
  | [] => .ok ([], area)
  | request :: rest => do
    let (offset, area) ← allocate area request
    let (offsets, area) ← allocateEach allocate area rest
    return (offset :: offsets, area)

section Allocate

variable {α β : Type} {allocate : α → β → Except Fault (Int × α)}

/-- What has been handed out after some requests, if each is given the next word. -/
theorem allocateEach_ok (base : Int) (words : α → List Bool) (isPointer : β → Bool)
    (hnext : ∀ area request offset area', allocate area request = .ok (offset, area') →
      offset = wordOffset base (words area).length ∧ words area' = words area ++ [isPointer request])
    {area area' : α} {requests : List β} {offsets : List Int}
    (h : allocateEach allocate area requests = .ok (offsets, area')) :
    words area' = words area ++ requests.map isPointer ∧
      offsets = requests.mapIdx fun k _ => wordOffset base ((words area).length + k) := by
  induction requests generalizing area offsets with
  | nil =>
    cases h
    simp
  | cons request rest ih =>
    simp only [allocateEach, except_bind_ok_iff, except_pure_ok_iff] at h
    obtain ⟨⟨offset, area₁⟩, hfirst, ⟨offsets₁, area₂⟩, hrest, he⟩ := h
    cases he
    obtain ⟨rfl, hwords⟩ := hnext _ _ _ _ hfirst
    obtain ⟨hall, rfl⟩ := ih hrest
    refine ⟨by rw [hall, hwords]; simp, ?_⟩
    rw [List.mapIdx_cons, hwords]
    simp [Nat.add_assoc, Nat.add_comm 1]

/-- What every request preserves holds after all of them. -/
theorem allocateEach_preserves {P : α → Prop}
    (hstep : ∀ area request offset area', P area → allocate area request = .ok (offset, area') → P area')
    {area area' : α} {requests : List β} {offsets : List Int}
    (h : allocateEach allocate area requests = .ok (offsets, area')) (hP : P area) : P area' := by
  induction requests generalizing area offsets with
  | nil =>
    cases h
    exact hP
  | cons request rest ih =>
    simp only [allocateEach, except_bind_ok_iff, except_pure_ok_iff] at h
    obtain ⟨⟨offset, area₁⟩, hfirst, ⟨offsets₁, area₂⟩, hrest, he⟩ := h
    cases he
    exact ih hrest (hstep _ _ _ _ hP hfirst)

/-- The pointers of an area are the words that were handed out for pointers. -/
theorem pointerOffsetsFrom_requests (base : Int) (isPointer : β → Bool) (requests : List β) :
    pointerOffsetsFrom base (requests.map isPointer) =
      ((requests.zip (requests.mapIdx fun k _ => wordOffset base k)).filter fun p => isPointer p.1).map
        Prod.snd := by
  have hzip : requests.zip (requests.mapIdx fun k _ => wordOffset base k) =
      requests.zipIdx.map fun p => (p.1, wordOffset base p.2) := by
    rw [List.mapIdx_eq_zipIdx_map]
    conv => lhs; arg 1; rw [← List.zipIdx_map_fst 0 requests]
    rw [List.zip_map']
  rw [hzip, pointerOffsetsFrom, List.zipIdx_map]
  simp only [List.filter_map, List.map_map]
  rfl

end Allocate

/-- A frame is handed out word after word, behind the header. -/
theorem Frame.allocateEach_ok {pointers : List Bool} {offsets : List Int} {f : Frame}
    (h : allocateEach Frame.allocate {} pointers = .ok (offsets, f)) :
    f.words = pointers ∧ offsets = pointers.mapIdx fun k _ => wordOffset headerBytes k := by
  have hrun := DisBackend.allocateEach_ok headerBytes Frame.words (fun pointer => pointer)
    (fun area request offset area' hallocate => by
      obtain ⟨-, rfl, rfl⟩ := Frame.allocate_ok_iff.mp hallocate
      exact ⟨rfl, rfl⟩) h
  simpa using hrun

/-- Module data is handed out word after word, from its start on. -/
theorem ModuleData.allocateEach_ok {requests : List (String × Bool)} {offsets : List Int} {d : ModuleData}
    (h : allocateEach (fun d r => d.allocate r.1 r.2) ({} : ModuleData) requests = .ok (offsets, d)) :
    d.words = requests.map Prod.snd ∧ offsets = requests.mapIdx fun k _ => wordOffset 0 k := by
  have hrun := DisBackend.allocateEach_ok 0 ModuleData.words Prod.snd
    (fun area request offset area' hallocate => by
      obtain ⟨-, rfl, rfl⟩ := ModuleData.allocate_ok_iff.mp hallocate
      exact ⟨rfl, rfl⟩) h
  simpa using hrun

/-- Module data stays within reach of operands, and so does not grow as large as 32 bits allow. -/
theorem ModuleData.fitsInt32_size {requests : List (String × Bool)} {offsets : List Int} {d : ModuleData}
    (h : allocateEach (fun d r => d.allocate r.1 r.2) ({} : ModuleData) requests = .ok (offsets, d)) :
    FitsInt32 (d.size + wordBytes) := by
  have hreach : 0 ≤ d.nextOffset ∧ d.nextOffset ≤ operandMax := by
    refine allocateEach_preserves (P := fun d : ModuleData => 0 ≤ d.nextOffset ∧ d.nextOffset ≤ operandMax)
      ?_ h (by decide)
    intro area request offset area' hreach hallocate
    obtain ⟨hroom, -, rfl⟩ := ModuleData.allocate_ok_iff.mp hallocate
    have hnext : ModuleData.nextOffset ⟨area.words ++ [request.2]⟩ = area.nextOffset + wordBytes := by
      simp only [ModuleData.nextOffset, wordOffset, List.length_append, List.length_singleton]
      unfold wordBytes
      omega
    rw [hnext]
    unfold wordBytes at *
    omega
  unfold ModuleData.size FitsInt32 operandMax wordBytes at *
  omega

/-! ## Frames -/

/-- The size of the largest frame that can be handed out. -/
def Frame.largestSize : Int := 2147483640

theorem Frame.size_pos (f : Frame) : 0 ≤ f.size := by
  unfold size wordOffset headerBytes wordBytes
  omega

/-- No frame is larger. -/
theorem Frame.size_le_largestSize {pointers : List Bool} {offsets : List Int} {f : Frame}
    (h : allocateEach Frame.allocate {} pointers = .ok (offsets, f)) : f.size ≤ largestSize := by
  refine allocateEach_preserves (P := fun f : Frame => f.size ≤ largestSize) ?_ h (by decide)
  intro area request offset area' _ hallocate
  obtain ⟨hfits, -, rfl⟩ := Frame.allocate_ok_iff.mp hallocate
  unfold FitsInt32 at hfits
  unfold size largestSize wordOffset headerBytes wordBytes at *
  rw [List.length_append, List.length_singleton]
  omega

/-- Words are handed out as long as the frame does not become larger than that. -/
theorem Frame.allocateEach_total (pointers : List Bool) {f : Frame}
    (h : wordOffset headerBytes (f.words.length + pointers.length) ≤ largestSize) :
    ∃ offsets, allocateEach Frame.allocate f pointers = .ok (offsets, ⟨f.words ++ pointers⟩) := by
  induction pointers generalizing f with
  | nil => exact ⟨[], by rw [List.append_nil]; rfl⟩
  | cons pointer pointers ih =>
    have hfits : FitsInt32 (f.size + wordBytes) := by
      unfold largestSize wordOffset headerBytes wordBytes at h
      unfold FitsInt32 size wordOffset headerBytes wordBytes
      rw [List.length_cons] at h
      omega
    have hfirst : f.allocate pointer = .ok (f.size, ⟨f.words ++ [pointer]⟩) :=
      Frame.allocate_ok_iff.mpr ⟨hfits, rfl, rfl⟩
    have hlength : (f.words ++ [pointer]).length + pointers.length =
        f.words.length + (pointer :: pointers).length := by
      rw [List.length_append, List.length_singleton, List.length_cons]
      omega
    obtain ⟨offsets, hrest⟩ := ih (f := ⟨f.words ++ [pointer]⟩) (by rw [hlength]; exact h)
    refine ⟨f.size :: offsets, ?_⟩
    rw [List.append_assoc, List.singleton_append] at hrest
    simp only [allocateEach, except_bind_ok_iff, except_pure_ok_iff]
    exact ⟨_, hfirst, _, hrest, rfl⟩

/-- **The descriptor of a frame** lists what was handed out as a pointer, and marks nothing in the header. -/
theorem Frame.descriptor_exact {pointers : List Bool} {offsets : List Int} {f : Frame}
    (h : allocateEach Frame.allocate {} pointers = .ok (offsets, f)) (id : Int)
    (hsize : f.size ≠ largestSize) :
    ∃ d, f.descriptor id = .ok d ∧
      d.Describes id f.size (((pointers.zip offsets).filter fun p => p.1).map Prod.snd) ∧
      ∀ o < headerBytes, d.hasPointer o = false := by
  have hfits : FitsInt32 (f.size + wordBytes) := by
    have hle := Frame.size_le_largestSize h
    unfold FitsInt32
    unfold size largestSize wordOffset headerBytes wordBytes at *
    omega
  obtain ⟨hwords, rfl⟩ := Frame.allocateEach_ok h
  obtain ⟨d, hd, hdescribes⟩ :=
    describe_exact id f.words headerBytes_eq (Int.le_refl _) f.size_pos hfits
  refine ⟨d, hd, ?_, fun o ho => hasPointer_before hdescribes.pointers_eq (by decide) ho⟩
  rw [← pointerOffsetsFrom_requests headerBytes (fun pointer => pointer), List.map_id', ← hwords]
  exact hdescribes

/-- **The largest frame has no descriptor.** -/
theorem Frame.descriptor_overflow {f : Frame} (hsize : f.size = largestSize) (id : Int) :
    f.descriptor id = .error .addOverflow := by
  refine describe_overflow id f.size_pos ?_
  rw [hsize]
  decide

/-! ## Module data -/

/-- **The descriptor of module data** lists what was handed out as a pointer. It is always there. -/
theorem ModuleData.descriptor_exact {requests : List (String × Bool)} {offsets : List Int}
    {data : ModuleData}
    (h : allocateEach (fun data r => data.allocate r.1 r.2) ({} : ModuleData) requests = .ok (offsets, data))
    (id : Int) :
    ∃ d, data.descriptor id = .ok d ∧
      d.Describes id data.size (((requests.zip offsets).filter fun p => p.1.2).map Prod.snd) := by
  have hsize : 0 ≤ data.size := Int.le_trans (by decide) (Int.le_max_right _ _)
  have hfits := ModuleData.fitsInt32_size h
  obtain ⟨hwords, rfl⟩ := ModuleData.allocateEach_ok h
  obtain ⟨d, hd, hdescribes⟩ :=
    describe_exact id data.words zero_eq_words (Int.le_max_left _ _) hsize hfits
  refine ⟨d, hd, ?_⟩
  rw [← pointerOffsetsFrom_requests 0 Prod.snd, ← hwords]
  exact hdescribes

/-! ## The whole -/

/-- **Maps are sets of words, and areas are described by them,** but for frames of the largest size, which
have no descriptor. -/
theorem pointer_maps_exact (d : TypeDescriptor) (pointers : List Bool) (requests : List (String × Bool))
    (id : Int) :
    (d.map.length ≤ 33554432 → d.MapLaws) ∧
    (∀ offsets (f : Frame), allocateEach Frame.allocate {} pointers = .ok (offsets, f) →
      ((∃ d, f.descriptor id = .ok d ∧
          d.Describes id f.size (((pointers.zip offsets).filter fun p => p.1).map Prod.snd) ∧
          ∀ o < headerBytes, d.hasPointer o = false) ↔ f.size ≠ Frame.largestSize) ∧
      (f.size = Frame.largestSize → f.descriptor id = .error .addOverflow)) ∧
    ∀ offsets (data : ModuleData),
      allocateEach (fun data r => data.allocate r.1 r.2) {} requests = .ok (offsets, data) →
      ∃ d, data.descriptor id = .ok d ∧
        d.Describes id data.size (((requests.zip offsets).filter fun p => p.1.2).map Prod.snd) := by
  refine ⟨TypeDescriptor.mapLaws, fun offsets f h => ⟨⟨?_, Frame.descriptor_exact h id⟩, ?_⟩, ?_⟩
  · rintro ⟨d, hd, -⟩ hsize
    rw [Frame.descriptor_overflow hsize id] at hd
    cases hd
  · intro hsize
    exact Frame.descriptor_overflow hsize id
  · intro offsets data h
    exact ModuleData.descriptor_exact h id

/-- A map with a bit for word 9 only, and zero bytes after it. -/
def padded : TypeDescriptor := ⟨5, 16, [0, 0x40, 0, 0]⟩

/-- Words are marked in any order and more than once, and beyond the end of the map. A frame and module data
of three words each mark their pointers. -/
theorem pointer_maps_exact_padded :
    (∃ d', padded.setPointers [264, 0, 264] = .ok d' ∧ d'.hasPointer 264 = true ∧
      d'.hasPointer 72 = true ∧ d'.hasPointer 8 = false) ∧
    padded.trim.map = [0, 0x40] ∧ padded.trim.pointerOffsets = [72] ∧
    (∃ offsets f d, allocateEach Frame.allocate {} [true, false, true] = .ok (offsets, f) ∧
      f.descriptor 3 = .ok d ∧ d.pointerOffsets = [64, 80] ∧ d.map.length = 2) ∧
    ∃ offsets data d, allocateEach (fun (data : ModuleData) r => data.allocate r.1 r.2) {}
        [("sys", true), ("count", false), ("name", true)] = .ok (offsets, data) ∧
      data.descriptor 0 = .ok d ∧ d.pointerOffsets = [0, 16] ∧ d.map.length = 1 := by
  obtain ⟨hmaps, hframes, -⟩ := pointer_maps_exact padded [true, false, true] [] 3
  obtain ⟨-, -, hdata⟩ :=
    pointer_maps_exact padded [] [("sys", true), ("count", false), ("name", true)] 0
  have hlaws := hmaps (by decide)
  obtain ⟨d', hd', -, -, -, hhas⟩ := hlaws.mark [264, 0, 264] (by decide)
  refine ⟨⟨d', hd', ?_, ?_, ?_⟩, by decide, ?_, ?_, ?_⟩
  · exact (hhas 264 (by decide)).mpr (by decide)
  · exact (hhas 72 (by decide)).mpr (by decide)
  · rw [Bool.eq_false_iff]
    intro hpointer
    exact absurd ((hhas 8 (by decide)).mp hpointer) (by decide)
  · rw [hlaws.trim_listed]
    decide
  · have hrun : allocateEach Frame.allocate {} [true, false, true] =
        .ok ([64, 72, 80], ⟨[true, false, true]⟩) := by
      rfl
    obtain ⟨d, hd, hdescribes, -⟩ := (hframes _ _ hrun).1.mpr (by decide)
    refine ⟨_, _, d, hrun, hd, hdescribes.pointers_eq, ?_⟩
    have hbytes : (d.map.length : Int) = 2 := hdescribes.length_eq.trans (by decide)
    omega
  · have hrun : allocateEach (fun (data : ModuleData) r => data.allocate r.1 r.2) {}
        [("sys", true), ("count", false), ("name", true)] = .ok ([0, 8, 16], ⟨[true, false, true]⟩) := by
      rfl
    obtain ⟨d, hd, hdescribes⟩ := hdata _ _ hrun
    refine ⟨_, _, d, hrun, hd, hdescribes.pointers_eq, ?_⟩
    have hbytes : (d.map.length : Int) = 1 := hdescribes.length_eq.trans (by decide)
    omega

/-- All words of the largest frame are handed out, and then the frame has no descriptor: a descriptor of its
size cannot be made at all. -/
theorem Frame.descriptor_missing :
    (∃ offsets f, allocateEach Frame.allocate {} (List.replicate 268435447 false) = .ok (offsets, f) ∧
      f.size = 2147483640 ∧ ∀ id, f.descriptor id = .error .addOverflow) ∧
    ∀ id, TypeDescriptor.blank id 2147483640 = .error .addOverflow := by
  have hsize (pointers : List Bool) (h : pointers.length = 268435447) :
      Frame.size ⟨pointers⟩ = 2147483640 := by
    unfold Frame.size wordOffset headerBytes wordBytes
    rw [h]
    rfl
  have hfull := hsize _ (List.length_replicate (n := 268435447) (a := false))
  obtain ⟨offsets, hrun⟩ := Frame.allocateEach_total (List.replicate 268435447 false) (f := {}) (by
    rw [List.length_replicate]
    decide)
  refine ⟨⟨offsets, _, hrun, hfull, fun id => Frame.descriptor_overflow hfull id⟩, fun id => ?_⟩
  unfold TypeDescriptor.blank checkedAdd
  rw [if_neg (by decide)]
  rfl

end DisBackend
