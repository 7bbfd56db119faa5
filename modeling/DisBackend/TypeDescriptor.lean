import DisBackend.Fault
import DisBackend.Text.Numeral

/-!
# `TypeDescriptor` — which words the garbage collector follows

A descriptor gives the size of a frame, of an object or of the module data, and a bitmap with one bit
for each word of it, the highest bit of a byte first. A set bit marks a pointer. The map may be
shorter or longer than the size asks for; words beyond it are not pointers.

## Contents

* `TypeDescriptor`, `TypeDescriptor.blank`;
* `hasWord`, `markWord` — reading and setting the bit of a word;
* `TypeDescriptor.setPointer`, `hasPointer`, `pointerOffsets`, `trim`;
* `TypeDescriptor.text` — the listing form.
-/

namespace DisBackend

/-- The size of something in memory and the places of the pointers in it. -/
structure TypeDescriptor where
  id : Int
  size : Int
  map : List UInt8
  deriving DecidableEq, Repr, Inhabited

namespace TypeDescriptor

/-! ## Bits of a map -/

/-- The bit of word `word` is set. -/
def hasWord (map : List UInt8) (word : Nat) : Bool :=
  (map.getD (word / 8) 0).toNat.testBit (7 - word % 8)

/-- The map with zero bytes added up to a length of at least `length`. -/
def extendTo (length : Nat) (map : List UInt8) : List UInt8 :=
  map ++ List.replicate (length - map.length) 0

/-- The map with the bit of word `word` set; it grows if it is too short. -/
def markWord (map : List UInt8) (word : Nat) : List UInt8 :=
  (extendTo (word / 8 + 1) map).modify (word / 8) (· ||| UInt8.ofNat (1 <<< (7 - word % 8)))

/-! ## Descriptors -/

/-- A descriptor without pointers, whose map covers `size` bytes. -/
def blank (id size : Int) : Except Fault TypeDescriptor := do
  let bytes := (← checkedAdd (max size 0) wordBytes) - 1
  let words := bytes / wordBytes
  return ⟨id, size, List.replicate ((words + 7) / 8).toNat 0⟩

/-- The descriptor with the word at `offset` marked as a pointer. -/
def setPointer (d : TypeDescriptor) (offset : Int) : Except Fault TypeDescriptor :=
  if 0 ≤ offset ∧ offset % wordBytes = 0 then
    .ok { d with map := markWord d.map (offset / wordBytes).toNat }
  else .error (.unalignedPointer offset)

/-- The descriptor with every word at one of `offsets` marked. -/
def setPointers (d : TypeDescriptor) : List Int → Except Fault TypeDescriptor
  | [] => .ok d
  | offset :: rest => do (← d.setPointer offset).setPointers rest

/-- The word that holds the byte at `offset` is a pointer. Offsets are rounded toward zero. -/
def hasPointer (d : TypeDescriptor) (offset : Int) : Bool :=
  let word := offset.tdiv wordBytes
  0 ≤ word && hasWord d.map word.toNat

/-- The byte offsets of all pointers, in increasing order. -/
def pointerOffsets (d : TypeDescriptor) : List Int :=
  ((List.range (8 * d.map.length)).filter (hasWord d.map)).map fun word : Nat => word * wordBytes

/-- A map without its trailing zero bytes. -/
def trimMap (map : List UInt8) : List UInt8 := (map.reverse.dropWhile (· == 0)).reverse

/-- The descriptor with the shortest map that marks the same pointers. -/
def trim (d : TypeDescriptor) : TypeDescriptor := { d with map := trimMap d.map }

/-- The listing form: id, size and map. -/
def text (d : TypeDescriptor) : String := s!"desc ${d.id},{d.size},\"{Text.hexBytes d.map}\""

end TypeDescriptor
end DisBackend
