import DisBackend.Module.Flags
import DisBackend.TypeDescriptor

/-!
# `Module` — a loadable unit of code and data

## Contents

* `Link`, `Import` — what a module offers and what it needs;
* `Module`, with the two magic numbers that open a module file;
* `Module.descriptor?`, `Module.importCount`, `Module.agrees`.
-/

namespace DisBackend

/-- A function the module offers to others. -/
structure Link where
  pc : Int
  typeId : Int
  /-- A hash of the function's type. -/
  signature : UInt32
  name : String
  deriving DecidableEq, Repr, Inhabited

/-- A function the module needs from another. -/
structure Import where
  /-- A hash of the function's type. -/
  signature : UInt32
  name : String
  deriving DecidableEq, Repr, Inhabited

/-- The first number of an unsigned module file. -/
def unsignedMagic : Int := 819248

/-- The first number of a signed module file. -/
def signedMagic : Int := 923426

/-- The stack a module gets unless it asks for another size. -/
def defaultStackSize : Int := 65536

/-- A complete module. -/
structure Module where
  name : String
  magic : Int := unsignedMagic
  flags : Flags := Flags.none
  stackSize : Int := defaultStackSize
  code : List Instruction := []
  types : List TypeDescriptor := []
  dataSize : Int := 0
  data : List DataItem := []
  entryPc : Int := 0
  entryType : Int := 0
  links : List Link := []
  /-- One group for each module that is imported from. -/
  imports : List (List Import) := []
  handlers : List Handler := []
  sourcePath : String := ""
  deriving DecidableEq, Repr, Inhabited

namespace Module

/-- The first descriptor with a given id. -/
def descriptor? (m : Module) (id : Int) : Option TypeDescriptor := m.types.find? (·.id == id)

/-- The number of functions imported. -/
def importCount (m : Module) : Nat := m.imports.flatten.length

/-- Two modules are equal when their reals are compared as numbers. -/
def agrees (a b : Module) : Bool :=
  decide ({ a with data := [] } = { b with data := [] }) && a.data.length == b.data.length &&
    (a.data.zip b.data).all fun (x, y) => x.agrees y

end Module
end DisBackend
