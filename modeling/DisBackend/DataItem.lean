import DisBackend.Double.Layout
import DisBackend.Text.Quoted
import DisBackend.Word

/-!
# `DataItem` — initial contents of module data

Before a module runs, the loader fills its data segment item by item. Most items store values at an
offset. An `array` item creates an array; an `index` item directs the items after it into one of the
elements of an array, until a `pop` item.

Values that a module file stores as raw machine words have the type of that word; offsets are written
like all other numbers of a file.

## Contents

* `DataKind` — the kinds of item, with the codes and names they have;
* `DataItem`, `DataItem.kind`, `DataItem.offset`, `DataItem.count`;
* `DataItem.text` — the listing form;
* `DataItem.agrees` — equality with reals compared as numbers.
-/

namespace DisBackend

/-- The kinds of data item. -/
inductive DataKind where
  | bytes | words | string | reals | array | index | pop | longs
  deriving DecidableEq, Repr, Inhabited

namespace DataKind

/-- The number of a kind in a module file. -/
def code : DataKind → Nat
  | .bytes => 1 | .words => 2 | .string => 3 | .reals => 4
  | .array => 5 | .index => 6 | .pop => 7 | .longs => 8

/-- The kind with a given number. -/
def ofCode? : Nat → Option DataKind
  | 1 => some .bytes | 2 => some .words | 3 => some .string | 4 => some .reals
  | 5 => some .array | 6 => some .index | 7 => some .pop | 8 => some .longs
  | _ => none

/-- The name of a kind. -/
def name : DataKind → String
  | .bytes => "bytes" | .words => "words" | .string => "string" | .reals => "reals"
  | .array => "array" | .index => "index" | .pop => "pop" | .longs => "longs"

/-- A kind is found again from its number. -/
@[simp]
theorem ofCode?_code (kind : DataKind) : ofCode? kind.code = some kind := by
  cases kind <;> rfl

end DataKind

/-- One step in filling the data segment. -/
inductive DataItem where
  /-- Bytes from `offset` on. -/
  | bytes (offset : Int) (values : List UInt8)
  /-- 32-bit numbers, each stored in a word of its own. -/
  | words (offset : Int) (values : List UInt32)
  /-- A pointer to a string. -/
  | string (offset : Int) (value : String)
  /-- Floating-point numbers. -/
  | reals (offset : Int) (values : List Double)
  /-- 64-bit integers. -/
  | longs (offset : Int) (values : List Int64)
  /-- A pointer to an array of `length` elements described by `typeId`. -/
  | array (offset : Int) (typeId length : Int32)
  /-- What follows goes into element `index` of the array at `offset`. -/
  | index (offset : Int) (index : Int32)
  /-- What follows goes where it went before the last `index`. -/
  | pop
  deriving DecidableEq, Repr, Inhabited

namespace DataItem

/-- The kind of an item. -/
def kind : DataItem → DataKind
  | .bytes .. => .bytes
  | .words .. => .words
  | .string .. => .string
  | .reals .. => .reals
  | .longs .. => .longs
  | .array .. => .array
  | .index .. => .index
  | .pop => .pop

/-- The offset of an item; a `pop` has none and counts as 0. -/
def offset : DataItem → Int
  | .bytes o _ | .words o _ | .string o _ | .reals o _ | .longs o _ | .array o _ _ | .index o _ => o
  | .pop => 0

/-- The number of elements an item stores: bytes, for a string. -/
def size : DataItem → Nat
  | .bytes _ values => values.length
  | .words _ values => values.length
  | .string _ value => value.utf8ByteSize
  | .reals _ values => values.length
  | .longs _ values => values.length
  | .array .. | .index .. | .pop => 1

/-- The element count as the machine holds it, in 32 bits. -/
def count (item : DataItem) : Int := toInt32 item.size

/-- A listing line: what it stores, where, and the values. -/
def valuesText (name : String) (offset : Int) (values : List String) : String :=
  name ++ " @" ++ toString offset ++ String.join (values.map (" " ++ ·))

/-- The listing form of an item. -/
def text : DataItem → String
  | .bytes o values => valuesText "byte" o (values.map fun v => toString v.toNat)
  | .words o values => valuesText "word" o (values.map fun v => toString v.toInt32.toInt)
  | .string o value => valuesText "string" o [Text.quoted value]
  | .reals o values => valuesText "real" o (values.map (Double.text Double.dataLayout))
  | .longs o values => valuesText "long" o (values.map fun v => toString v.toInt)
  | .array o typeId length => s!"array @{o} ${typeId.toInt},{length.toInt}"
  | .index o element => s!"indir @{o},{element.toInt}"
  | .pop => "apop"

/-- Two items are equal when their reals are compared as numbers. -/
def agrees : DataItem → DataItem → Bool
  | .reals o xs, .reals o' ys =>
    o == o' && xs.length == ys.length && (xs.zip ys).all fun (x, y) => x.numericEq y
  | a, b => a == b

end DataItem
end DisBackend
