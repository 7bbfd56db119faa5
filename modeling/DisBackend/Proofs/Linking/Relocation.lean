import DisBackend.Proofs.Linking.Assembly

/-!
# `Proofs.Linking.Relocation` — linking is a relocation

A module holds its fragments one after the other. Each instruction of a fragment is found at the
fragment's address plus its position, with the numbers that name something outside the instruction
changed to what names the same thing in the module, and with nothing else changed.

## Contents

* `Instruction.typeId?_movedTo`, `Instruction.branchTarget?_movedTo` — what a moved instruction names;
* `Relocated` — what a module is, in terms of its fragments;
* `assemble_relocated` — modules that were put together are that.
-/

namespace DisBackend

theorem Operand.immediate?_plus (amount : Int) (o : Operand) :
    (o.plus amount).immediate? = o.immediate?.map (· + amount) := by
  cases o <;> rfl

/-- A moved instruction names a descriptor that lies `callSiteBase` further. -/
theorem Instruction.typeId?_movedTo (start callSiteBase : Int) (i : Instruction) :
    (i.movedTo start callSiteBase).typeId? = i.typeId?.map (· + callSiteBase) := by
  unfold typeId?
  rw [show (i.movedTo start callSiteBase).opcode = i.opcode from rfl]
  by_cases hsrc : i.opcode.typeInSource = true
  · have hopcode := i.opcode.typeInSource_iff.mp hsrc
    rw [if_pos hsrc, if_pos hsrc, ← Operand.immediate?_plus]
    simp only [movedTo, if_pos hopcode]
  rw [if_neg hsrc, if_neg hsrc]
  by_cases hmid : i.opcode.typeInMiddle = true
  · have hopcode := i.opcode.typeInMiddle_iff.mp hmid
    rw [if_pos hmid, if_pos hmid, ← Operand.immediate?_plus]
    simp only [movedTo, if_pos hopcode]
  · rw [if_neg hmid, if_neg hmid, Option.map_none]

/-- A moved branch goes `start` further. -/
theorem Instruction.branchTarget?_movedTo (start callSiteBase : Int) (i : Instruction) :
    (i.movedTo start callSiteBase).branchTarget? = i.branchTarget?.map (· + start) := by
  unfold branchTarget?
  by_cases hbranch : i.opcode.isBranch = true
  · simp only [movedTo, hbranch, if_true, Operand.immediate?_plus]
  · simp only [movedTo, if_neg hbranch, Option.map_none]

/-- **A module in terms of its fragments.** Fragment number `k` starts at the address
`startOf fragments k`, and its call sites are numbered from `callSiteStart fragments k` on. -/
structure Relocated (fragments : List Fragment) (data : DataSegment) (compiled : CompiledModule) :
    Prop where
  symbols : compiled.symbols =
    fragments.mapIdx fun k f => ⟨f.name, k + 1, startOf fragments k, f.code.length⟩
  types_length : compiled.module.types.length =
    1 + fragments.length + (fragments.map fun f => f.callSites.length).sum
  types_id : ∀ (n : Nat) (d : TypeDescriptor), compiled.module.types[n]? = some d → d.id = n
  data_descriptor : compiled.module.types[0]? = some data.descriptor
  frame_descriptor : ∀ (k : Nat) (f : Fragment), fragments[k]? = some f →
    ∃ d, compiled.module.types[k + 1]? = some d ∧ f.frame.descriptor (k + 1) = .ok d
  callSite : ∀ (k : Nat) (f : Fragment) (c : Nat) (d : TypeDescriptor), fragments[k]? = some f →
    f.callSites[c]? = some d → compiled.module.types[callSiteStart fragments k + c]? =
      some { d with id := callSiteStart fragments k + c }
  /-- A patched instruction has the frame id or the address of its callee, which is the last fragment of
  the name and so, if names are distinct, the one of the name. -/
  patched : ∀ (k : Nat) (f : Fragment), fragments[k]? = some f → ∀ patch ∈ f.patches,
    ∃ (i : Instruction) (j : Nat) (g : Fragment), f.code[patch.instruction]? = some i ∧
      fragments[j]? = some g ∧ g.name = patch.callee ∧
      (∀ (j' : Nat) (g' : Fragment), j < j' → fragments[j']? = some g' → g'.name ≠ patch.callee) ∧
      compiled.module.code[startOf fragments k + patch.instruction]? =
        some (match patch.kind with
          | .frameId => { i with src := .imm (j + 1) }
          | .callAddress => { i with dst := .imm (startOf fragments j) })
  /-- Every other instruction is moved. -/
  moved : ∀ (k : Nat) (f : Fragment) (n : Nat) (i : Instruction), fragments[k]? = some f →
    f.code[n]? = some i → (∀ patch ∈ f.patches, patch.instruction ≠ n) →
      compiled.module.code[startOf fragments k + n]? =
        some (i.movedTo (startOf fragments k) (callSiteStart fragments k))
  /-- If it named a call site of its fragment, it names a descriptor of that size and map. -/
  names_callSite : ∀ (k : Nat) (f : Fragment) (i : Instruction) (c : Nat) (d : TypeDescriptor),
    fragments[k]? = some f → i.typeId? = some (c : Int) → f.callSites[c]? = some d →
      ∃ id d', (i.movedTo (startOf fragments k) (callSiteStart fragments k)).typeId? = some id ∧
        compiled.module.descriptor? id = some d' ∧ d'.size = d.size ∧ d'.map = d.map
  /-- If it went to an instruction of its fragment, it goes to where that one is. -/
  names_target : ∀ (k : Nat) (i : Instruction) (t : Nat), i.branchTarget? = some (t : Int) →
    (i.movedTo (startOf fragments k) (callSiteStart fragments k)).branchTarget? =
      some ((startOf fragments k + t : Nat) : Int)
  handlers : compiled.module.handlers =
    (fragments.mapIdx fun k f => f.handlers.map (Handler.movedTo (startOf fragments k))).flatten
  prologue : compiled.module.code[0]? = some (prologue data)
  /-- After the last fragment there is at most one instruction, a `ret`. -/
  ending : compiled.module.code.drop (startOf fragments fragments.length) = [] ∨
    compiled.module.code.drop (startOf fragments fragments.length) = [.plain .ret]
  /-- The code does not run past its end. -/
  closed : compiled.module.code.getLast?.map Instruction.opcode = some .ret

/-- **Linking is a correct relocation.** -/
theorem assemble_relocated {options : LinkOptions} {fragments : List Fragment} {data : DataSegment}
    {compiled : CompiledModule} {log log' : Log}
    (h : assemble options fragments data log = .ok compiled log') :
    Relocated fragments data compiled := by
  obtain ⟨A⟩ := assemble_assembly h
  refine {
    symbols := A.symbols_eq_mapIdx
    types_length := by rw [A.length_types, callSitesBefore, List.take_length]
    types_id := fun n d hd => Module.id_of_consistent A.consistent hd
    data_descriptor := by rw [A.types_eq]; rfl
    frame_descriptor := fun k f hf => A.frame_at hf
    callSite := fun k f c d hf hd => A.callSite_at hf hd
    patched := fun k f hf patch hpatch => ?patched
    moved := fun k f n i hf hi hnot => A.moved_at hf hi hnot
    names_callSite := fun k f i c d hf hc hd => ?names
    names_target := fun k i t ht => ?target
    handlers := A.handlers_eq
    prologue := A.code_ends.1
    ending := A.code_ends.2
    closed := by rw [A.module_eq]; exact getLast?_closeCode _ }
  case patched =>
    obtain ⟨i, j, g, hi, hg, hname, hlast, hcode⟩ := A.patched_at hf hpatch
    refine ⟨i, j, g, hi, hg, hname, hlast, hcode.trans ?_⟩
    cases patch.kind <;> rfl
  case names =>
    refine ⟨callSiteStart fragments k + c, _, ?_,
      Module.descriptor?_of_consistent A.consistent (A.callSite_at hf hd), rfl, rfl⟩
    rw [Instruction.typeId?_movedTo, hc, Option.map_some, Int.add_comm]
  case target =>
    rw [Instruction.branchTarget?_movedTo, ht, Option.map_some, Int.add_comm, Int.natCast_add]

/-- A function with a call, an object of its own, a branch and a handler. -/
def callingFragment : Fragment where
  name := "main"
  code := [.binary .frame (.imm 0) (.fp 64), .binary .new (.imm 0) (.fp 72),
    .ternary .beqw (.fp 80) (.imm 0) (.imm 1), .binary .call (.fp 64) (.imm 0), .plain .ret]
  frame := ⟨[false, true, false]⟩
  callSites := [⟨0, 16, [128]⟩]
  patches := [⟨0, .frameId, "loop"⟩, ⟨3, .callAddress, "loop"⟩]
  handlers := [.catchAll 72 1 4 4]

/-- The function it calls, which has two objects of its own. -/
def calledFragment : Fragment where
  name := "loop"
  code := [.binary .new (.imm 1) (.fp 64), .unary .jmp (.imm 0)]
  frame := ⟨[true]⟩
  callSites := [⟨0, 8, [0]⟩, ⟨1, 24, [32]⟩]

def pairData : DataSegment := ⟨⟨0, 16, [192]⟩, 16, [.string 8 "$Sys"], [], 0, 8⟩

/-- The two of them linked. -/
def linkedPair : CompiledModule where
  module := {
    name := "pair"
    flags := ⟨96⟩
    code := [.ternary .load (.mp 8) (.imm 0) (.mp 0),
      .binary .frame (.imm 2) (.fp 64), .binary .new (.imm 3) (.fp 72),
      .ternary .beqw (.fp 80) (.imm 0) (.imm 2), .binary .call (.fp 64) (.imm 6), .plain .ret,
      .binary .new (.imm 5) (.fp 64), .unary .jmp (.imm 6), .plain .ret]
    types := [⟨0, 16, [192]⟩, ⟨1, 88, [0, 64]⟩, ⟨2, 72, [0, 128]⟩, ⟨3, 16, [128]⟩, ⟨4, 8, [0]⟩,
      ⟨5, 24, [32]⟩]
    dataSize := 16
    data := [.string 8 "$Sys"]
    entryType := 1
    links := [⟨0, 1, initSignature, initName⟩]
    imports := [[]]
    handlers := [.catchAll 72 2 5 5] }
  symbols := [⟨"main", 1, 1, 5⟩, ⟨"loop", 2, 6, 2⟩]

/-- Linking a function and the one it calls. -/
theorem assemble_relocated_pair :
    ∃ log, assemble { name := "pair" } [callingFragment, calledFragment] pairData #[]
        = .ok linkedPair log ∧
      Relocated [callingFragment, calledFragment] pairData linkedPair := by
  obtain ⟨log, hlog⟩ : ∃ log, assemble { name := "pair" } [callingFragment, calledFragment] pairData #[]
      = .ok linkedPair log := ⟨_, rfl⟩
  exact ⟨log, hlog, assemble_relocated hlog⟩

end DisBackend
