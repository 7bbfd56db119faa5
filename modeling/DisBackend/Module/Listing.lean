import DisBackend.Module

/-!
# `Module.Listing` — a module as text

## Contents

* `Module.listing` — header, descriptors, code with addresses, data, links, imports and handlers.
-/

namespace DisBackend.Module

/-- A signature and a name, as links and imports show them. -/
def signatureText (signature : UInt32) (name : String) : String :=
  s!"{Text.hexWord signature},\"{name}\""

/-- The first lines of a listing. -/
def headerLines (m : Module) : List String :=
  [s!"module {m.name}",
    s!"    magic {m.magic}, flags 0x{Text.hexDigits m.flags.bits.toNat}, stack {m.stackSize}",
    s!"    entry pc {m.entryPc}, type {m.entryType}"]
    ++ (if m.sourcePath = "" then [] else [s!"    source {m.sourcePath}"])

/-- An instruction after its address. -/
def codeLine (pc : Nat) (instruction : Instruction) : String :=
  Text.padLeft 6 ' ' (toString pc) ++ "  " ++ instruction.text

/-- The lines for one group of imports. -/
def importLines (index : Nat) (group : List Import) : List String :=
  s!"ldt {index}" :: group.map fun i => "    " ++ signatureText i.signature i.name

/-- The lines of a listing. -/
def listingLines (m : Module) : List String :=
  m.headerLines ++ [""]
    ++ m.types.map TypeDescriptor.text ++ [""]
    ++ m.code.mapIdx codeLine ++ [""]
    ++ [s!"var @mp,{m.dataSize}"]
    ++ m.data.map (fun item => "    " ++ item.text)
    ++ m.links.map (fun l => s!"link {l.typeId},{l.pc}," ++ signatureText l.signature l.name)
    ++ (m.imports.mapIdx importLines).flatten
    ++ m.handlers.map Handler.text

/-- The listing of a module. -/
def listing (m : Module) : String := String.join (m.listingLines.map (· ++ "\n"))

end DisBackend.Module
