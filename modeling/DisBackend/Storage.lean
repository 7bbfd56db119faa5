import DisBackend.TypeDescriptor

/-!
# `Storage` — words handed out one after the other

Frames and module data grow by one word at a time, and no word is handed out twice. A storage area is
therefore known by the list of its words, of which all that matters is whether the garbage collector
follows them: `true` marks a pointer. The offset of a word is given by its position.

## Contents

* `wordOffset`, `pointerOffsetsFrom` — offsets by position;
* `describe` — the descriptor of an area;
* `Frame` — the words of a function's frame, after the header;
* `ModuleData` — the words of a module's data.
-/

namespace DisBackend

/-- The offset of word number `index` of an area that starts at `base`. -/
def wordOffset (base : Int) (index : Nat) : Int := base + wordBytes * index

/-- The offsets of the pointers in an area that starts at `base`. -/
def pointerOffsetsFrom (base : Int) (words : List Bool) : List Int :=
  (words.zipIdx.filter Prod.fst).map fun (_, index) => wordOffset base index

/-- The descriptor of `size` bytes, of which the words from `base` on are given. -/
def describe (id size base : Int) (words : List Bool) : Except Fault TypeDescriptor := do
  (← TypeDescriptor.blank id size).setPointers (pointerOffsetsFrom base words)

/-! ## Frames -/

/-- A function's frame: a header, then the words handed out. The header holds no pointer. -/
structure Frame where
  words : List Bool := []
  deriving DecidableEq, Repr, Inhabited

namespace Frame

/-- The size of a frame in bytes. -/
def size (f : Frame) : Int := wordOffset headerBytes f.words.length

/-- Hands out the next word: its offset, and the frame with it. -/
def allocate (f : Frame) (pointer : Bool) : Except Fault (Int × Frame) := do
  let _ ← checkedAdd f.size wordBytes
  return (f.size, ⟨f.words ++ [pointer]⟩)

/-- The descriptor of a frame. -/
def descriptor (f : Frame) (id : Int) : Except Fault TypeDescriptor :=
  describe id f.size headerBytes f.words

end Frame

/-! ## Module data -/

/-- A module's data segment: the words handed out. -/
structure ModuleData where
  words : List Bool := []
  deriving DecidableEq, Repr, Inhabited

namespace ModuleData

/-- The offset of the next word. -/
def nextOffset (d : ModuleData) : Int := wordOffset 0 d.words.length

/-- The size of the segment in bytes, at least one word. -/
def size (d : ModuleData) : Int := max d.nextOffset wordBytes

/-- Hands out the next word: its offset, and the segment with it. Every word must be within reach of
an operand; `tag` says what did not fit. -/
def allocate (d : ModuleData) (tag : String) (pointer : Bool) : Except Fault (Int × ModuleData) :=
  if d.nextOffset ≤ operandMax - wordBytes then .ok (d.nextOffset, ⟨d.words ++ [pointer]⟩)
  else .error (.moduleDataFull tag d.nextOffset)

/-- The descriptor of a segment. -/
def descriptor (d : ModuleData) (id : Int) : Except Fault TypeDescriptor :=
  describe id d.size 0 d.words

end ModuleData
end DisBackend
