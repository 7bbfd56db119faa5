import DisBackend.Module

/-!
# `Module.Validation` — do the parts of a module fit together?

The parts are checked in a fixed order and the first disagreement counts: descriptors, data size,
entry point, links, code, handlers, data.

## Contents

* `Module.IsCodeAddress`, `Module.IsTypeId` — what addresses and ids must satisfy;
* `Module.instructionFault?`, `Module.handlerFits`, `Module.itemFits` — the checks of single parts;
* `Module.inconsistency?` — the first disagreement.
-/

namespace DisBackend.Module

/-- `pc` is the address of an instruction. -/
def IsCodeAddress (m : Module) (pc : Int) : Prop := 0 ≤ pc ∧ pc < m.code.length

/-- `id` is the position of a descriptor. -/
def IsTypeId (m : Module) (id : Int) : Prop := 0 ≤ id ∧ id < m.types.length

instance (m : Module) (pc : Int) : Decidable (m.IsCodeAddress pc) :=
  inferInstanceAs (Decidable (_ ∧ _))

instance (m : Module) (id : Int) : Decidable (m.IsTypeId id) :=
  inferInstanceAs (Decidable (_ ∧ _))

/-- The instruction at `pc` names a descriptor that does not exist. -/
def descriptorFault? (m : Module) (pc : Nat) (i : Instruction) : Option Inconsistency :=
  match i.typeId? with
  | some id => if m.IsTypeId id then none else some (.missingDescriptor pc i id)
  | none => none

/-- What is wrong with the instruction at `pc`. -/
def instructionFault? (m : Module) (pc : Nat) (i : Instruction) : Option Inconsistency :=
  if i.mid.isIndirect then some (.indirectMiddle pc i)
  else if ∃ operand ∈ i.operands, ∃ value ∈ operand.values, ¬ Encodable value then
    some (.operandOutOfRange pc i)
  else
    match i.branchTarget? with
    | some target =>
      if m.IsCodeAddress target then m.descriptorFault? pc i
      else some (.branchOutOfRange pc i target)
    | none => m.descriptorFault? pc i

/-- The addresses and the descriptor of a handler exist. The range covered may end right after the
last instruction. -/
def handlerFits (m : Module) (h : Handler) : Bool :=
  0 ≤ h.pc1 ∧ h.pc1 ≤ h.pc2 ∧ h.pc2 ≤ m.code.length ∧
    (h.typeId = -1 ∨ m.IsTypeId h.typeId) ∧
    (h.wildcardPc = -1 ∨ m.IsCodeAddress h.wildcardPc) ∧
    ∀ c ∈ h.cases, m.IsCodeAddress c.pc

/-- The offset of a data item lies in the data segment. -/
def itemFits (m : Module) (item : DataItem) : Bool :=
  item = .pop ∨ (0 ≤ item.offset ∧ item.offset < m.dataSize)

/-- The size of the module data according to its descriptor. -/
def describedDataSize (m : Module) : Int := (m.types.head?.map TypeDescriptor.size).getD 0

/-- The first disagreement between the parts of a module. -/
def inconsistency? (m : Module) : Option Inconsistency :=
  (if m.code = [] then some .noInstructions else none)
  |>.or ((m.types.zipIdx).findSome? fun (d, index) =>
    if d.id = index then none else some (.descriptorOutOfPlace index d.id))
  |>.or (if m.describedDataSize = m.dataSize then none
    else some (.dataSizeMismatch m.dataSize m.describedDataSize))
  |>.or (if m.IsCodeAddress m.entryPc then none else some (.entryOutOfRange m.entryPc))
  |>.or (if m.IsTypeId m.entryType then none else some (.entryTypeOutOfRange m.entryType))
  |>.or (m.links.findSome? fun l =>
    if m.IsCodeAddress l.pc ∧ m.IsTypeId l.typeId then none
    else some (.linkOutOfRange l.name l.pc l.typeId))
  |>.or (m.code.zipIdx.findSome? fun (i, pc) => m.instructionFault? pc i)
  |>.or (if m.handlers ≠ [] ∧ ¬ m.flags.contains Flags.handlers then some .handlersWithoutFlag
    else none)
  |>.or (m.handlers.zipIdx.findSome? fun (h, index) =>
    if m.handlerFits h then none else some (.handlerOutOfRange index h))
  |>.or (m.data.findSome? fun item => if m.itemFits item then none else some (.dataOutOfRange item))

end DisBackend.Module
