import DisBackend.Proofs.Module.RoundTrip

/-!
# `Proofs.Module.Canonical` — files that are read and written again

The reader accepts many files for one module: numbers in a longer form than needed, counts that are not
looked at, sections that end in something other than zero, bytes after the end. Whatever of this a file
has, the module that is read from it has one file of its own, the canonical one, from which the same
module is read.

There is one exception. An `index` item has its offset in a word, which holds more than a number of the
file does, and that offset is written as a number.

## Contents

* `DataItem.OffsetRead`, `yields_offsets` — where the offset of an item was read;
* `Module.storable_of_decode`, `Module.exists_canonical` — which modules that were read can be written;
* `Module.recode`, `Module.recode_canonical` — reading and writing again.
-/

namespace DisBackend

/-- The offset of the item was read as a number of the file, unless the item is an `index`. -/
def DataItem.OffsetRead (item : DataItem) : Prop :=
  Encodable item.offset ∨ ∃ offset element, item = .index offset element

theorem yields_payload_offset (kind : DataKind) (count : Nat) {offset : Int} (h : Encodable offset) :
    Yields (DataItem.readPayload kind count offset) DataItem.OffsetRead := by
  cases kind with
  | bytes | words | reals | longs => exact Yields.after fun _ => yields_pure (.inl h)
  | string => exact Yields.after fun _ => Yields.after fun _ => Yields.after fun _ => yields_pure (.inl h)
  | array => exact Yields.after fun _ => Yields.after fun _ => yields_pure (.inl h)
  | index => exact Yields.after fun _ => Yields.after fun _ => yields_pure (.inr ⟨_, _, rfl⟩)
  | pop => exact yields_pure (.inl (by decide))

namespace Module

variable {m : Module} {bytes : Bytes}

/-- Of the modules that are read, the items of the data section were read one by one. -/
theorem yields_offsets : Yields read fun m => ∀ item ∈ m.data, item.OffsetRead := by
  have hitems : Yields readData fun items => ∀ item ∈ items, item.OffsetRead :=
    yields_data (yields_item fun kind count _ _ hoffset => yields_payload_offset kind count hoffset)
  -- eleven parts are read before the data, and five after it
  refine Yields.after fun _ => Yields.after fun _ => Yields.after fun _ => Yields.after fun _ =>
    Yields.after fun _ => Yields.after fun _ => Yields.after fun _ => Yields.after fun _ =>
    Yields.after fun _ => Yields.after fun _ => Yields.after fun _ => hitems.bind fun data hdata => ?_
  exact Yields.after fun _ => Yields.after fun _ => Yields.after fun _ => Yields.after fun _ =>
    Yields.after fun _ => yields_pure hdata

/-- **A module that was read is storable** if the offsets of its `index` items have room in a file. -/
theorem storable_of_decode (h : decode bytes = .ok m)
    (hindex : ∀ offset element, .index offset element ∈ m.data → Encodable offset) : m.Storable := by
  obtain ⟨c, hread⟩ := read_of_decode h
  refine yields_module _ m c hread fun item hitem => ?_
  rcases yields_offsets _ m c hread item hitem with hoffset | ⟨offset, element, rfl⟩
  · exact hoffset
  · exact hindex offset element hitem

/-- **A storable module has a canonical file.** -/
theorem exists_canonical (hmagic : m.magic = unsignedMagic) (h : m.Storable) :
    ∃ canonical, m.encode = .ok canonical ∧ decode canonical = .ok m := by
  obtain ⟨canonical, hencode, hreads⟩ := coded_module hmagic h
  refine ⟨canonical, hencode, ?_⟩
  have hread := hreads 0 [] rfl
  rw [List.append_nil] at hread
  unfold decode StateT.run'
  rw [hread]
  rfl

/-- A file, read and written again. -/
def recode (bytes : Bytes) : Option Bytes :=
  match decode bytes with
  | .ok m => m.encode.toOption
  | .error _ => none

theorem recode_of_decode {canonical : Bytes} (h : decode bytes = .ok m) (hencode : m.encode = .ok canonical) :
    recode bytes = some canonical := by
  simp only [recode, h, hencode]
  rfl

/-- **Writing undoes reading, up to the canonical form.** A module that was read cannot be written exactly
if the offset of one of its `index` items has no room in a file. All others have a canonical file: the
same module is read from it, and reading and writing again changes nothing any more. -/
theorem recode_canonical (h : decode bytes = .ok m) (hmagic : m.magic = unsignedMagic) :
    ((∃ fault, m.encode = .error fault) ↔
      ∃ offset element, .index offset element ∈ m.data ∧ ¬ Encodable offset) ∧
    ((∀ offset element, .index offset element ∈ m.data → Encodable offset) →
      ∃ canonical, m.encode = .ok canonical ∧ decode canonical = .ok m ∧
        recode bytes = some canonical ∧ recode canonical = some canonical) := by
  have hcanonical (hindex : ∀ offset element, .index offset element ∈ m.data → Encodable offset) :=
    exists_canonical hmagic (storable_of_decode h hindex)
  refine ⟨⟨?_, ?_⟩, fun hindex => ?_⟩
  · rintro ⟨fault, hfault⟩
    by_contra hnone
    push Not at hnone
    obtain ⟨canonical, hencode, -⟩ := hcanonical hnone
    rw [hfault] at hencode
    cases hencode
  · rintro ⟨offset, element, hmem, hrange⟩
    cases hencode : m.encode with
    | error fault => exact ⟨fault, rfl⟩
    | ok canonical => exact absurd (encodable_offsets hencode _ hmem) hrange
  · obtain ⟨canonical, hencode, hdecode⟩ := hcanonical hindex
    exact ⟨canonical, hencode, hdecode, recode_of_decode h hencode, recode_of_decode hdecode hencode⟩

/-- A file in which little is as the writer would have it: long forms of short numbers, counts next to
kinds that have none, an `index` item with two offsets, tables that end in 7 and in 9, and two bytes after
the end. The four bytes given are the offset of the `index` item that counts. -/
def wasteful (offset : Bytes) : Bytes :=
  [0xC0, 0x0C, 0x80, 0x30, 0xC0, 0x00, 0x00, 0x60, 0xC0, 0x00, 0x00, 0x00, 0x80, 0x01, 0x10, 0x80, 0x00,
    0x00, 0x00, 0x00, 0x0C, 0x1B, 0x75, 0x80, 0x03, 0x63, 0x05] ++ offset ++
  [0, 0, 0, 1, 0x5F, 0x08, 0, 0, 0, 2, 0, 0, 0, 3, 0x00, 0x6D, 0x00, 0x00, 0x07, 0x00, 0x80, 0x09, 0x73,
    0x00, 0xAA, 0xBB]

/-- The module in it. -/
def wastefulModule (offset : Int) : Module where
  name := "m"
  flags := Flags.imports.union Flags.handlers
  stackSize := 0
  code := [.plain .ret]
  dataSize := 16
  data := [.pop, .index offset 1, .array 8 2 3]
  sourcePath := "s"

/-- The canonical form of `wasteful` is eleven bytes shorter. If its `index` item lies just beyond the
numbers of a file, it has none. -/
theorem recode_canonical_wasteful :
    decode (wasteful [0, 0, 0, 8]) = .ok (wastefulModule 8) ∧
    (∃ canonical, (wastefulModule 8).encode = .ok canonical ∧ decode canonical = .ok (wastefulModule 8) ∧
      recode (wasteful [0, 0, 0, 8]) = some canonical ∧ recode canonical = some canonical ∧
      canonical.length + 11 = (wasteful [0, 0, 0, 8]).length) ∧
    decode (wasteful [0x20, 0, 0, 0]) = .ok (wastefulModule 0x20000000) ∧
    ∃ fault, (wastefulModule 0x20000000).encode = .error fault := by
  have hread : decode (wasteful [0, 0, 0, 8]) = .ok (wastefulModule 8) := by decide +kernel
  have hread' : decode (wasteful [0x20, 0, 0, 0]) = .ok (wastefulModule 0x20000000) := by decide +kernel
  have hindex : ∀ offset element, .index offset element ∈ (wastefulModule 8).data → Encodable offset := by
    intro offset element hmem
    obtain ⟨rfl, -⟩ : offset = 8 ∧ element = 1 := by simpa [wastefulModule] using hmem
    decide
  obtain ⟨-, hcanonical⟩ := recode_canonical hread rfl
  obtain ⟨canonical, hencode, hdecode, hrecode, hfixed⟩ := hcanonical hindex
  have hlength : (recode (wasteful [0, 0, 0, 8])).map List.length = some 46 := by decide +kernel
  rw [hrecode, Option.map_some, Option.some.injEq] at hlength
  obtain ⟨hfails, -⟩ := recode_canonical hread' rfl
  have hbeyond : .index 0x20000000 1 ∈ (wastefulModule 0x20000000).data := by simp [wastefulModule]
  refine ⟨hread, ⟨canonical, hencode, hdecode, hrecode, hfixed, by rw [hlength]; rfl⟩, hread', ?_⟩
  exact hfails.mpr ⟨_, _, hbeyond, by decide⟩

end Module
end DisBackend
