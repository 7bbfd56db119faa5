import DisBackend.Word

/-!
# `Module.Flags` — the flag word of a module

## Contents

* `Flags`, `Flags.ofInt`, `Flags.toInt` — a set of flags and the number it is written as;
* `Flags.union`, `Flags.contains`;
* `Flags.named` — the flags that have a name.
-/

namespace DisBackend

/-- A set of flags, one for each bit. -/
structure Flags where
  bits : BitVec 32
  deriving DecidableEq, Repr, Inhabited

namespace Flags

/-- The flags in a 32-bit number. -/
def ofInt (n : Int) : Flags := ⟨BitVec.ofInt 32 n⟩

/-- The flags as a signed 32-bit number. -/
def toInt (f : Flags) : Int := f.bits.toInt

/-- No flag. -/
def none : Flags := ⟨0⟩

/-- The module must be compiled to machine code. -/
def mustCompile : Flags := ⟨1⟩

/-- The module must not be compiled to machine code. -/
def dontCompile : Flags := ⟨2⟩

/-- All instances of the module share their data. -/
def shareData : Flags := ⟨4⟩

/-- The module is loaded dynamically. -/
def dynamic : Flags := ⟨8⟩

/-- The module has an import table of the old form. -/
def oldImports : Flags := ⟨16⟩

/-- The module has an exception handler table. -/
def handlers : Flags := ⟨32⟩

/-- The module has an import table. -/
def imports : Flags := ⟨64⟩

/-- The flags of either set. -/
def union (f g : Flags) : Flags := ⟨f.bits ||| g.bits⟩

/-- Every flag of `g` is one of `f`. -/
def contains (f g : Flags) : Bool := f.bits &&& g.bits == g.bits

/-- The flags with a name, in the order of their bits. -/
def named : List (String × Flags) :=
  [("NONE", none), ("MUST_COMPILE", mustCompile), ("DONT_COMPILE", dontCompile),
    ("SHARE_MP", shareData), ("DYN_MOD", dynamic), ("HAS_LDT0", oldImports),
    ("HAS_EXCEPT", handlers), ("HAS_LDT", imports)]

/-- The flags of a number are that number again. -/
@[simp]
theorem ofInt_toInt (f : Flags) : ofInt f.toInt = f := by
  simp [ofInt, toInt]

end Flags
end DisBackend
