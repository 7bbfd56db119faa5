import DisBackend.Fault
import DisBackend.Handler

/-!
# `Linking.Relocation` — code moved to its place

The addresses in a fragment count from its start and its descriptor ids from its first call site.
Moving it to its place adds the address at which it starts to the former and the id of its first call
site to the latter.

## Contents

* `Operand.shift` — a number moved by an amount;
* `Instruction.relocate`, `Handler.relocate`.
-/

namespace DisBackend

/-- Moves an operand that is a number by an amount; the others stay. -/
def Operand.shift (amount : Int) : Operand → Except Fault Operand
  | .imm value => (checkedAdd amount value).map .imm
  | operand => .ok operand

/-- Moves an instruction: branch targets by `start`, descriptor ids by `callSiteBase`. -/
def Instruction.relocate (start callSiteBase : Int) (i : Instruction) :
    Except Fault Instruction := do
  let src ← if i.opcode.typeInSource then i.src.shift callSiteBase else pure i.src
  let mid ← if i.opcode.typeInMiddle then i.mid.shift callSiteBase else pure i.mid
  let dst ← if i.opcode.isBranch then i.dst.shift start else pure i.dst
  return { i with src, mid, dst }

/-- Moves the address of a case. -/
def ExceptionCase.relocate (start : Int) (c : ExceptionCase) : Except Fault ExceptionCase :=
  (checkedAdd c.pc start).map fun pc => { c with pc }

/-- Moves every address of a handler. A wildcard that is not there stays so. -/
def Handler.relocate (start : Int) (h : Handler) : Except Fault Handler := do
  let pc1 ← checkedAdd h.pc1 start
  let pc2 ← checkedAdd h.pc2 start
  let cases ← h.cases.mapM (ExceptionCase.relocate start)
  let wildcardPc ← if 0 ≤ h.wildcardPc then checkedAdd h.wildcardPc start else pure h.wildcardPc
  return { h with pc1, pc2, cases, wildcardPc }

end DisBackend
