import Mathlib.Logic.Relation
import DisBackend.Linking.Fragment
import DisBackend.Proofs.Semantics.Datum

/-!
# `Proofs.Semantics.Machine` — what the code of a function means

The machine executes the code of one function on the words of its frame, of the module data and of the
objects. `src`, `mid` and `dst` are the operands of an instruction: an operation computes
`dst = mid op src`, a branch goes to `dst` if `src` compares to `mid` in the given way, a move copies a
word, and `ret` stops. Code that creates or calls other functions' frames is not described here.

## Contents

* `Action`, `Opcode.action?` — what an operation of the machine does;
* `Machine`, `Machine.read?`, `Machine.write?` — state and access to operands;
* `Machine.step?`, `Machine.Reaches`, `Machine.Stopped` — execution.
-/

namespace DisBackend

open Ssa (Comparison MathOp)

/-! ## Operations -/

/-- What an operation of the machine does. -/
inductive Action where
  /-- Copies a word. -/
  | move
  /-- Computes with words of one kind. -/
  | compute (kind : Kind) (op : MathOp)
  /-- Goes elsewhere if a comparison holds of words of one kind. -/
  | branch (kind : Kind) (op : Comparison)
  /-- Goes elsewhere. -/
  | jump
  /-- Makes an object. -/
  | allocate
  /-- Stops. -/
  | stop
  deriving DecidableEq, Repr

/-- What an operation of the machine does, if it stays within one function. -/
def Opcode.action? : Opcode → Option Action
  | .movw | .movf | .movp => some .move
  | .jmp => some .jump
  | .new => some .allocate
  | .ret => some .stop
  | .addw => some (.compute .word .add)
  | .subw => some (.compute .word .subtract)
  | .mulw => some (.compute .word .multiply)
  | .divw => some (.compute .word .divide)
  | .modw => some (.compute .word .modulo)
  | .andw => some (.compute .word .and)
  | .orw => some (.compute .word .or)
  | .xorw => some (.compute .word .xor)
  | .shlw => some (.compute .word .leftShift)
  | .shrw => some (.compute .word .rightShift)
  | .addf => some (.compute .real .add)
  | .subf => some (.compute .real .subtract)
  | .mulf => some (.compute .real .multiply)
  | .divf => some (.compute .real .divide)
  | .addc => some (.compute .string .add)
  | .beqw => some (.branch .word .equal)
  | .bnew => some (.branch .word .notEqual)
  | .bltw => some (.branch .word .less)
  | .blew => some (.branch .word .lessOrEqual)
  | .bgtw => some (.branch .word .greater)
  | .bgew => some (.branch .word .greaterOrEqual)
  | .beqf => some (.branch .real .equal)
  | .bnef => some (.branch .real .notEqual)
  | .bltf => some (.branch .real .less)
  | .blef => some (.branch .real .lessOrEqual)
  | .bgtf => some (.branch .real .greater)
  | .bgef => some (.branch .real .greaterOrEqual)
  | .beqc => some (.branch .string .equal)
  | .bnec => some (.branch .string .notEqual)
  | .bltc => some (.branch .string .less)
  | .blec => some (.branch .string .lessOrEqual)
  | .bgtc => some (.branch .string .greater)
  | .bgec => some (.branch .string .greaterOrEqual)
  | _ => none

/-! ## States -/

/-- The state of the machine while it executes a function. -/
structure Machine where
  /-- The address of the next instruction in the code of the function. -/
  pc : Nat
  frame : Area
  data : Area
  heap : List Area
  /-- What the caller has been given. -/
  result : Option Datum

namespace Machine

/-- The word `offset` bytes into what a word refers to. -/
def deref? (m : Machine) (offset : Int) : Datum → Option Datum
  | .object number => do (← m.heap[number]?).word? offset
  | .result => if offset = 0 then m.result else none
  | _ => none

/-- Changes the word `offset` bytes into what a word refers to. -/
def storeThrough? (m : Machine) (offset : Int) (w : Datum) : Datum → Option Machine
  | .object number => do
    let area ← (← m.heap[number]?).store? offset w
    return { m with heap := m.heap.set number area }
  | .result => if offset = 0 then some { m with result := some w } else none
  | _ => none

/-- The word of an operand. -/
def read? (m : Machine) : Operand → Option Datum
  | .absent => none
  | .imm n => some (.int (Int64.ofInt n))
  | .fp offset => m.frame.word? offset
  | .mp offset => m.data.word? offset
  | .fpIndirect base offset => do m.deref? offset (← m.frame.word? base)
  | .mpIndirect base offset => do m.deref? offset (← m.data.word? base)

/-- Changes the word of an operand. -/
def write? (m : Machine) (w : Datum) : Operand → Option Machine
  | .absent | .imm _ => none
  | .fp offset => do return { m with frame := ← m.frame.store? offset w }
  | .mp offset => do return { m with data := ← m.data.store? offset w }
  | .fpIndirect base offset => do m.storeThrough? offset w (← m.frame.word? base)
  | .mpIndirect base offset => do m.storeThrough? offset w (← m.data.word? base)

/-- Goes to the next instruction. -/
def next (m : Machine) : Machine := { m with pc := m.pc + 1 }

/-- Goes to the address that an operand gives. -/
def goTo? (m : Machine) : Operand → Option Machine
  | .imm address => if 0 ≤ address then some { m with pc := address.toNat } else none
  | _ => none

/-- A new object of the size that a descriptor gives, and the machine with it. -/
def allocate (P : Platform) (m : Machine) (d : TypeDescriptor) : Datum × Machine :=
  (.object m.heap.length,
    { m with heap := m.heap ++
      [(List.range (d.size / wordBytes).toNat).map (P.fresh m.heap.length)] })

/-- The descriptor of the code's own that an operand gives. -/
def site? (fragment : Fragment) : Operand → Option TypeDescriptor
  | .imm id => if 0 ≤ id then fragment.callSites[id.toNat]? else none
  | _ => none

/-! ## Execution -/

/-- The left-hand side of an operation: without a middle operand it is the destination. -/
def leftOperand (i : Instruction) : Operand := if i.mid.isAbsent then i.dst else i.mid

/-- Executes an instruction. -/
def perform? (P : Platform) (fragment : Fragment) (m : Machine) (i : Instruction) :
    Action → Option Machine
  | .move => do
    return (← m.write? (← m.read? i.src) i.dst).next
  | .compute kind op => do
    let w ← P.compute? op kind (← m.read? (leftOperand i)) (← m.read? i.src)
    return (← m.write? w i.dst).next
  | .branch kind op => do
    let taken ← P.compare? op kind (← m.read? i.src) (← m.read? i.mid)
    if taken then m.goTo? i.dst else return m.next
  | .jump => m.goTo? i.dst
  | .allocate => do
    let (w, m) := m.allocate P (← site? fragment i.src)
    return (← m.write? w i.dst).next
  | .stop => none

/-- One step. There is none when the machine has stopped. -/
def step? (P : Platform) (fragment : Fragment) (m : Machine) : Option Machine := do
  let i ← fragment.code[m.pc]?
  m.perform? P fragment i (← i.opcode.action?)

/-- Some number of steps leads from one state to another. -/
def Reaches (P : Platform) (fragment : Fragment) : Machine → Machine → Prop :=
  Relation.ReflTransGen fun m m' => m.step? P fragment = some m'

/-- The machine has come to the end of the function. -/
def Stopped (fragment : Fragment) (m : Machine) : Prop :=
  ∃ i, fragment.code[m.pc]? = some i ∧ i.opcode.action? = some .stop

section Steps

variable {P : Platform} {fragment : Fragment} {m m' m'' : Machine} {i : Instruction}

theorem step?_eq_perform? {action : Action} (hcode : fragment.code[m.pc]? = some i)
    (haction : i.opcode.action? = some action) :
    m.step? P fragment = m.perform? P fragment i action := by
  simp [step?, hcode, haction]

theorem Reaches.of_step (h : m.step? P fragment = some m') : Reaches P fragment m m' :=
  Relation.ReflTransGen.single h

theorem Reaches.step (h : m.step? P fragment = some m') (h' : Reaches P fragment m' m'') :
    Reaches P fragment m m'' :=
  Relation.ReflTransGen.head h h'

/-- A move. -/
theorem step?_move {w : Datum} (hcode : fragment.code[m.pc]? = some i)
    (haction : i.opcode.action? = some .move) (hread : m.read? i.src = some w)
    (hwrite : m.write? w i.dst = some m') : m.step? P fragment = some m'.next := by
  rw [step?_eq_perform? hcode haction]
  simp [perform?, hread, hwrite]

/-- An operation with all three operands. -/
theorem step?_compute {kind : Kind} {op : MathOp} {a b w : Datum}
    (hcode : fragment.code[m.pc]? = some i) (haction : i.opcode.action? = some (.compute kind op))
    (hpresent : i.mid.isAbsent = false) (hmid : m.read? i.mid = some a)
    (hsrc : m.read? i.src = some b) (hw : P.compute? op kind a b = some w)
    (hwrite : m.write? w i.dst = some m') : m.step? P fragment = some m'.next := by
  rw [step?_eq_perform? hcode haction]
  simp [perform?, leftOperand, hpresent, hmid, hsrc, hw, hwrite]

/-- A branch that is taken. -/
theorem step?_branch_taken {kind : Kind} {op : Comparison} {a b : Datum} {address : Nat}
    (hcode : fragment.code[m.pc]? = some i) (haction : i.opcode.action? = some (.branch kind op))
    (hsrc : m.read? i.src = some a) (hmid : m.read? i.mid = some b)
    (hholds : P.compare? op kind a b = some true) (hdst : i.dst = .imm address) :
    m.step? P fragment = some { m with pc := address } := by
  rw [step?_eq_perform? hcode haction]
  simp [perform?, hsrc, hmid, hholds, hdst, goTo?]

/-- A branch that is not taken. -/
theorem step?_branch_passed {kind : Kind} {op : Comparison} {a b : Datum}
    (hcode : fragment.code[m.pc]? = some i) (haction : i.opcode.action? = some (.branch kind op))
    (hsrc : m.read? i.src = some a) (hmid : m.read? i.mid = some b)
    (hfails : P.compare? op kind a b = some false) :
    m.step? P fragment = some m.next := by
  rw [step?_eq_perform? hcode haction]
  simp [perform?, hsrc, hmid, hfails]

/-- A jump. -/
theorem step?_jump {address : Nat} (hcode : fragment.code[m.pc]? = some i)
    (haction : i.opcode.action? = some .jump) (hdst : i.dst = .imm address) :
    m.step? P fragment = some { m with pc := address } := by
  rw [step?_eq_perform? hcode haction]
  simp [perform?, hdst, goTo?]

/-- The creation of an object. -/
theorem step?_allocate {number : Nat} {d : TypeDescriptor} (hcode : fragment.code[m.pc]? = some i)
    (haction : i.opcode.action? = some .allocate) (hsrc : i.src = .imm number)
    (hd : fragment.callSites[number]? = some d)
    (hwrite : (m.allocate P d).2.write? (m.allocate P d).1 i.dst = some m') :
    m.step? P fragment = some m'.next := by
  rw [step?_eq_perform? hcode haction]
  simp [perform?, site?, hsrc, hd, hwrite]

end Steps
end Machine
end DisBackend
