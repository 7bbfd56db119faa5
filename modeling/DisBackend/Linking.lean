import DisBackend.Context
import DisBackend.Linking.Fragment
import DisBackend.Linking.Relocation
import DisBackend.Module.Validation
import DisBackend.Reporting

/-!
# `Linking` — fragments put together to a module

A module starts with one instruction that loads the system module; the fragments follow in the order
given, the entry function first. Descriptor 0 is that of module data, the frames come next in the order
of the functions, and then the call sites of one function after the other.

## Contents

* `Symbol`, `CompiledModule` — the result;
* `placeFrom`, `placementOf?` — where functions go;
* `LinkM`, `checkPatches`, `linkInstruction`, `linkFragment`, `linkFragments` — addresses and ids;
* `LinkOptions`, `moduleOf` — the module that linked fragments make;
* `assemble` — the whole.
-/

namespace DisBackend

/-- Where a function of a module lies. -/
structure Symbol where
  name : String
  frameId : Int
  address : Int
  /-- The number of instructions. -/
  length : Nat
  deriving DecidableEq, Repr, Inhabited

/-- What calls need to know of a function. -/
def Symbol.placement (s : Symbol) : Placement := ⟨s.frameId, s.address⟩

/-- A module and where its functions lie, in the order in which they were compiled. -/
structure CompiledModule where
  module : Module
  symbols : List Symbol
  deriving DecidableEq, Repr

/-- The first function of a given name. -/
def CompiledModule.symbol? (c : CompiledModule) (name : String) : Option Symbol :=
  c.symbols.find? (·.name == name)

/-- The number of instructions before the first function. -/
def prologueLength : Int := 1

/-- The frame descriptor of the entry function. -/
def entryFrameId : Int := 1

/-- The name under which the entry function is known to other modules. -/
def initName : String := "init"

/-- The signature of the entry function. -/
def initSignature : UInt32 := 0x4244b354

/-! ## Places -/

/-- The places of fragments, of which the first gets the given descriptor and address. -/
def placeFrom (frameId address : Int) : List Fragment → List Symbol
  | [] => []
  | f :: rest =>
    ⟨f.name, frameId, address, f.code.length⟩
      :: placeFrom (frameId + 1) (address + f.code.length) rest

/-- The places of the fragments of a module. -/
def placeFragments (fragments : List Fragment) : List Symbol :=
  placeFrom entryFrameId prologueLength fragments

/-- Where calls of a name go: of several functions with one name, to the last. -/
def placementOf? (symbols : List Symbol) (name : String) : Option Placement :=
  (symbols.reverse.find? (·.name == name)).map Symbol.placement

/-! ## Fragments in their places -/

/-- Linking: a computation that reports events and can be abandoned. -/
abbrev LinkM := Reporting Fault

/-- Every patch is of an instruction of the fragment, and no two are of the same. The instructions in
`seen` have been patched before. -/
def checkPatches (name : String) (length : Nat) (seen : List Nat) : List Patch → Except Fault Unit
  | [] => .ok ()
  | p :: rest =>
    if length ≤ p.instruction then .error (.patchOutOfRange p.instruction name length)
    else if seen.contains p.instruction then .error (.patchedTwice p.instruction name)
    else checkPatches name length (p.instruction :: seen) rest

/-- Where a fragment lies, and where its calls go. -/
structure Place where
  start : Int
  callSiteBase : Int
  callee? : String → Option Placement

/-- Instruction number `index` of a fragment in its place: a patched one names its callee, any other is
relocated. -/
def linkInstruction (f : Fragment) (place : Place) (index : Nat) (i : Instruction) :
    LinkM Instruction := do
  match f.patches.find? (·.instruction == index) with
  | none => liftResult (i.relocate place.start place.callSiteBase)
  | some patch =>
    match place.callee? patch.callee with
    | none => throw (.calleeNotLowered f.name patch.callee)
    | some placement =>
      emit (.patching patch.kind i f.name patch.callee)
      liftResult (patch.kind.apply i placement)

/-- The instructions of a fragment from number `index` on, in their places. -/
def linkCode (f : Fragment) (place : Place) : (index : Nat) → List Instruction →
    LinkM (List Instruction)
  | _, [] => return []
  | index, i :: rest => do
    let i ← linkInstruction f place index i
    return i :: (← linkCode f place (index + 1) rest)

/-- Descriptors numbered from `base` on. -/
def renumber (base : Int) (descriptors : List TypeDescriptor) : List TypeDescriptor :=
  descriptors.mapIdx fun index d => { d with id := base + index }

/-- What a fragment contributes to a module. -/
structure LinkedFragment where
  code : List Instruction
  callSites : List TypeDescriptor
  handlers : List Handler
  deriving DecidableEq, Repr

/-- A fragment in its place. -/
def linkFragment (f : Fragment) (place : Place) : LinkM LinkedFragment := do
  liftResult (checkPatches f.name f.code.length [] f.patches)
  let code ← linkCode f place 0 f.code
  let handlers ← liftResult (f.handlers.mapM (Handler.relocate place.start))
  return { code, callSites := renumber place.callSiteBase f.callSites, handlers }

/-- Fragments in their places. Their call sites are numbered from `callSiteBase` on. -/
def linkFragments (callee? : String → Option Placement) (callSiteBase : Int) :
    List (Fragment × Symbol) → LinkM (List LinkedFragment)
  | [] => return []
  | (f, symbol) :: rest => do
    let linked ← linkFragment f ⟨symbol.address, callSiteBase, callee?⟩
    return linked :: (← linkFragments callee? (callSiteBase + f.callSites.length) rest)

/-! ## The module -/

/-- What a module is told besides its fragments. -/
structure LinkOptions where
  name : String
  stackSize : Int := defaultStackSize
  sourcePath : String := ""
  deriving DecidableEq, Repr

/-- The instruction that loads the system module. -/
def prologue (data : DataSegment) : Instruction :=
  .ternary .load (.mp data.sysPathOffset) (.imm 0) (.mp data.sysOffset)

/-- Code that does not run past its end. -/
def closeCode (code : List Instruction) : List Instruction :=
  if code.getLast?.map Instruction.opcode = some .ret then code else code ++ [.plain .ret]

/-- The flags of a module with imports and perhaps handlers. -/
def moduleFlags (handlers : List Handler) : Flags :=
  if handlers.isEmpty then Flags.imports else Flags.imports.union Flags.handlers

/-- The descriptors of the frames of fragments. -/
def frameDescriptors (placed : List (Fragment × Symbol)) : Except Fault (List TypeDescriptor) :=
  placed.mapM fun (f, symbol) => f.frame.descriptor symbol.frameId

/-- The module that linked fragments make. -/
def moduleOf (options : LinkOptions) (data : DataSegment) (frames : List TypeDescriptor)
    (linked : List LinkedFragment) : Module :=
  let handlers := linked.flatMap LinkedFragment.handlers
  { name := options.name
    flags := moduleFlags handlers
    stackSize := options.stackSize
    code := closeCode (prologue data :: linked.flatMap LinkedFragment.code)
    types := data.descriptor :: frames ++ linked.flatMap LinkedFragment.callSites
    dataSize := data.size
    data := data.items
    entryPc := 0
    entryType := entryFrameId
    links := [⟨0, entryFrameId, initSignature, initName⟩]
    imports := [data.imports]
    handlers
    sourcePath := options.sourcePath }

/-- The event of having put together a module. -/
def assembledEvent (m : Module) : Event :=
  .assembled m.name m.code.length m.types.length m.dataSize m.importCount m.handlers.length

/-- The event of having placed a function. -/
def Symbol.placedEvent (s : Symbol) : Event := .functionPlaced s.name s.frameId s.address

/-- Puts fragments together to a module, which must be consistent. -/
def assemble (options : LinkOptions) (fragments : List Fragment) (data : DataSegment) :
    LinkM CompiledModule := do
  if fragments.isEmpty then throw .noEntryFragment
  let symbols := placeFragments fragments
  modify fun (log : Log) => log ++ (symbols.map Symbol.placedEvent).toArray
  let placed := fragments.zip symbols
  let linked ← linkFragments (placementOf? symbols) (fragments.length + 1) placed
  let frames ← liftResult (frameDescriptors placed)
  let module := moduleOf options data frames linked
  match module.inconsistency? with
  | some cause => throw (.inconsistentModule module.name cause)
  | none =>
    emit (assembledEvent module)
    return { module, symbols }

end DisBackend
