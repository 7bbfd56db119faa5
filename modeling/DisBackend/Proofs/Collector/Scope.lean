import DisBackend.Linking
import DisBackend.Lowering.Line
import DisBackend.Ssa.Program
import DisBackend.Sys

/-!
# `Proofs.Collector.Scope` — what the garbage collector must be told

The collector follows the words that descriptors mark as pointers. Code agrees with the descriptors if
every operation on pointers is on marked words and every operation on numbers is on words that are not.
To say so one has to know which descriptor holds for an operand: that of the function's frame, that of
module data, or that of the frame or object that an instruction of the function made.

## Contents

* `TypeDescriptor.Covers` — a descriptor has room for a word;
* `Scope` — a function's code and the descriptors it runs under;
* `Makes` — instructions that make frames and objects;
* `Scope.Reaches`, `Scope.Marks` — the words of an operand exist and are marked as they should be;
* `Opcode.pointers?`, `Scope.Sound` — what this means for each operation;
* `Operand.Similar`, `Scope.Sound.congr` — numbers in an instruction do not matter for it.
-/

namespace DisBackend

open Ssa (Function Ty)

/-- There is a word at `offset`, from `first` on, in what `d` describes. -/
def TypeDescriptor.Covers (d : TypeDescriptor) (first offset : Int) : Prop :=
  first ≤ offset ∧ offset < d.size ∧ offset % wordBytes = 0

/-- The code of a function in a module, and what is needed to find the descriptors of its words. -/
structure Scope where
  module : Module
  /-- The functions of the module. -/
  functions : List (Symbol × Function)
  /-- The descriptor of the function's frames. -/
  frame : TypeDescriptor
  /-- The descriptor of module data. -/
  data : TypeDescriptor
  /-- The function's result. -/
  result : Option Ty
  code : List Instruction

/-- Entry number `index` in the import table is the system function `native`. -/
def Module.Imports (m : Module) (index : Nat) (native : SysFunction) : Prop :=
  ∃ group i, m.imports[0]? = some group ∧ group[index]? = some i ∧
    SysFunction.lookup? i.name = some native

/-- The instruction puts a pointer to something new into the frame word at `base`, and `d` describes what
is new: an object, a frame for a function or a frame for a system function. -/
inductive Makes (m : Module) : Instruction → Int → TypeDescriptor → Prop where
  | object {id base : Int} {d : TypeDescriptor} (described : m.descriptor? id = some d) :
      Makes m (.binary .new (.imm id) (.fp base)) base d
  | callFrame {id base : Int} {d : TypeDescriptor} (described : m.descriptor? id = some d) :
      Makes m (.binary .frame (.imm id) (.fp base)) base d
  | systemFrame {index : Nat} {base handle : Int} {native : SysFunction}
      (imported : m.Imports index native) :
      Makes m (.ternary .mframe (.mp handle) (.imm index) (.fp base)) base (native.frameDescriptor 0)

namespace Scope

variable (S : Scope)

/-- The words that the operand of instruction number `n` names in the frame and in module data are there.
`0(32(fp))` is where the caller wants the result; it is named just before the function returns. -/
def Reaches (n : Nat) : Operand → Prop
  | .absent | .imm _ => True
  | .fp offset => S.frame.Covers headerBytes offset
  | .mp offset => S.data.Covers 0 offset
  | .fpIndirect base offset =>
    (base = returnSlot ∧ offset = 0 ∧ S.code[n + 1]? = some (.plain .ret)) ∨
      S.frame.Covers headerBytes base
  | .mpIndirect .. => False

/-- The word at `offset` of the frame in the word at `base` is an argument, marked as `pointer` says:
before instruction number `n` there is one that makes that frame, and every instruction that does so
makes a frame with such a word. -/
def MarksArgument (n : Nat) (base offset : Int) (pointer : Bool) : Prop :=
  (∃ (n' : Nat) (i : Instruction) (d : TypeDescriptor),
    n' < n ∧ S.code[n']? = some i ∧ Makes S.module i base d) ∧
  ∀ (n' : Nat) (i : Instruction) (d : TypeDescriptor),
    S.code[n']? = some i → Makes S.module i base d →
      d.Covers headerBytes offset ∧ d.hasPointer offset = pointer

/-- The word at `offset` of the object in the word at `base` is a field, marked as `pointer` says, if the
object was made by an instruction before number `n`.

Of an object that is made further down in the code nothing is said, although control may come from there:
blocks are lowered in the order in which they are written, and an access that is written before its `new` is
not checked. `Proofs.Lowering.Fields` has a function with such an access, which is accepted and reads beyond
the end of its object. -/
def MarksField (n : Nat) (base offset : Int) (pointer : Bool) : Prop :=
  ∀ (n' : Nat) (i : Instruction) (d : TypeDescriptor),
    n' < n → S.code[n']? = some i → Makes S.module i base d →
      d.Covers 0 offset ∧ d.hasPointer offset = pointer

/-- The word that the operand of instruction number `n` names is a pointer or not, as `pointer` says. A
pointer in the frame leads to an object; a word that is no pointer to the collector, to the frame of a
call. -/
def Marks (n : Nat) (pointer : Bool) : Operand → Prop
  | .absent => True
  | .imm _ => pointer = false
  | .fp offset => S.frame.hasPointer offset = pointer
  | .mp offset => S.data.hasPointer offset = pointer
  | .fpIndirect base offset =>
    if base = returnSlot then ∃ ty, S.result = some ty ∧ ty.isPointer = pointer
    else if S.frame.hasPointer base then S.MarksField n base offset pointer
    else S.MarksArgument n base offset pointer
  | .mpIndirect .. => False

end Scope

/-! ## Operations -/

/-- Whether the operation works on pointers or on numbers, if it copies, computes or compares. -/
def Opcode.pointers? : Opcode → Option Bool
  | .movp | .addc | .beqc | .bnec | .bltc | .blec | .bgtc | .bgec => some true
  | .movw | .movf
  | .addw | .subw | .mulw | .divw | .modw | .andw | .orw | .xorw | .shlw | .shrw
  | .addf | .subf | .mulf | .divf
  | .beqw | .bnew | .bltw | .blew | .bgtw | .bgew
  | .beqf | .bnef | .bltf | .blef | .bgtf | .bgef => some false
  | _ => none

/-- The operands that are read or written; the destination of a branch is neither. -/
def Instruction.touched (i : Instruction) : List Operand :=
  if i.opcode.isBranch then [i.src, i.mid] else i.operands

/-- The word at `result` may take what the function called with the frame at `base` returns: for a
function of the module, a value of the type of its result; for a system function, all that it stores. -/
structure Scope.TakesResult (S : Scope) (result base : Int) : Prop where
  function : ∀ (n : Nat) (symbol : Symbol) (g : Function),
    S.code[n]? = some (.binary .frame (.imm symbol.frameId) (.fp base)) → (symbol, g) ∈ S.functions →
      ∃ ty, g.result = some ty ∧ S.frame.hasPointer result = ty.isPointer
  native : ∀ (n index : Nat) (handle : Int) (native : SysFunction),
    S.code[n]? = some (.ternary .mcall (.fp base) (.imm index) (.mp handle)) →
    S.module.Imports index native →
      ∀ (k : Nat) (ty : Ty), native.returns[k]? = some ty →
        S.frame.Covers headerBytes (wordOffset result k) ∧
          S.frame.hasPointer (wordOffset result k) = ty.isPointer

/-- **Instruction number `n` agrees with the descriptors.** -/
structure Scope.Sound (S : Scope) (n : Nat) (i : Instruction) : Prop where
  reaches : ∀ operand ∈ i.operands, S.Reaches n operand
  marks : ∀ pointer, i.opcode.pointers? = some pointer →
    ∀ operand ∈ i.touched, S.Marks n pointer operand
  object : i.opcode = .new → S.Marks n true i.dst
  result : ∀ result base, i = .binary .lea (.fp result) (.fpIndirect base returnSlot) →
    S.TakesResult result base

/-! ## Numbers do not matter -/

/-- The operands are the same, or both are numbers. -/
def Operand.Similar (o o' : Operand) : Prop := o' = o ∨ ∃ v v', o = .imm v ∧ o' = .imm v'

theorem Operand.Similar.refl (o : Operand) : o.Similar o := .inl rfl

/-- The instructions differ at most in numbers. -/
structure Instruction.Similar (i i' : Instruction) : Prop where
  opcode : i'.opcode = i.opcode
  src : i.src.Similar i'.src
  mid : i.mid.Similar i'.mid
  dst : i.dst.Similar i'.dst

theorem Operand.Similar.trans {o o' o'' : Operand} (h : o.Similar o') (h' : o'.Similar o'') :
    o.Similar o'' := by
  rcases h with rfl | ⟨v, v', rfl, rfl⟩
  · exact h'
  · rcases h' with rfl | ⟨_, w, -, rfl⟩
    · exact .inr ⟨v, v', rfl, rfl⟩
    · exact .inr ⟨v, w, rfl, rfl⟩

theorem Instruction.Similar.trans {i i' i'' : Instruction} (h : i.Similar i') (h' : i'.Similar i'') :
    i.Similar i'' :=
  ⟨h'.opcode.trans h.opcode, h.src.trans h'.src, h.mid.trans h'.mid, h.dst.trans h'.dst⟩

variable {S : Scope} {n : Nat}

theorem Scope.Reaches.congr {o o' : Operand} (h : S.Reaches n o) (hs : o.Similar o') :
    S.Reaches n o' := by
  rcases hs with rfl | ⟨v, v', rfl, rfl⟩
  · exact h
  · trivial

theorem Scope.Marks.congr {pointer : Bool} {o o' : Operand} (h : S.Marks n pointer o)
    (hs : o.Similar o') : S.Marks n pointer o' := by
  rcases hs with rfl | ⟨v, v', rfl, rfl⟩
  · exact h
  · exact h

/-- **Numbers do not matter.** -/
theorem Scope.Sound.congr {i i' : Instruction} (h : S.Sound n i) (hs : i.Similar i') : S.Sound n i' := by
  have hreaches := h.reaches
  simp only [Instruction.operands, List.forall_mem_cons] at hreaches
  obtain ⟨hsrc, hmid, hdst, -⟩ := hreaches
  refine ⟨?_, fun pointer hpointer => ?_, fun hnew => ?_, ?_⟩
  · simp only [Instruction.operands, List.forall_mem_cons]
    exact ⟨hsrc.congr hs.src, hmid.congr hs.mid, hdst.congr hs.dst, by simp⟩
  · rw [hs.opcode] at hpointer
    have hmarks := h.marks pointer hpointer
    unfold Instruction.touched at hmarks ⊢
    rw [hs.opcode]
    by_cases hbranch : i.opcode.isBranch = true
    · rw [if_pos hbranch] at hmarks ⊢
      simp only [List.forall_mem_cons] at hmarks ⊢
      exact ⟨hmarks.1.congr hs.src, hmarks.2.1.congr hs.mid, by simp⟩
    · rw [if_neg hbranch] at hmarks ⊢
      simp only [Instruction.operands, List.forall_mem_cons] at hmarks ⊢
      exact ⟨hmarks.1.congr hs.src, hmarks.2.1.congr hs.mid, hmarks.2.2.1.congr hs.dst, by simp⟩
  · rw [hs.opcode] at hnew
    exact (h.object hnew).congr hs.dst
  · rintro result base rfl
    -- none of the operands is a number, so the instructions are the same
    refine h.result result base ?_
    obtain ⟨hopcode, hs₁, hs₂, hs₃⟩ := hs
    have hsame {o o' : Operand} (ho : o.Similar o') (hnumber : ∀ v, o' ≠ .imm v) : o = o' := by
      rcases ho with rfl | ⟨_, v, -, rfl⟩
      · rfl
      · exact absurd rfl (hnumber v)
    cases i
    rw [Instruction.binary, Instruction.mk.injEq]
    exact ⟨hopcode.symm, hsame hs₁ nofun, hsame hs₂ nofun, hsame hs₃ nofun⟩

end DisBackend
