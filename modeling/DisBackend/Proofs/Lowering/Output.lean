import DisBackend.Lowering
import Mathlib.Data.List.Basic

/-!
# `Proofs.Lowering.Output` — code that is patched by number

The code of a function can also be written in one go: every instruction is put behind the code that is there,
and what it waits for is remembered under its number. At the end the jumps get the addresses of their blocks,
and the patches are left to the linker. Lines that keep what they wait for come to the same code and the same
patches.

## Contents

* `Output`, `Output.emit`, `Output.emitBlock` — writing line after line;
* `settleJumps`, `Output.fragment` — the end;
* `Output.emits`, `Output.emitBlocks` — what has been written after some lines, and after some blocks;
* `settleJumps_draft` — jumps that are settled by number;
* `fragmentOf_eq_output` — the same fragment.
-/

namespace DisBackend

open Ssa (BlockId)

/-! ## Writing -/

/-- Code that is being written. -/
structure Output where
  code : List Instruction
  /-- The numbers of the instructions that wait for a callee. -/
  patches : List Patch
  /-- The numbers of the instructions that wait for a block. -/
  jumps : List (Nat × BlockId)
  /-- The addresses of the blocks so far. -/
  starts : List Nat

namespace Output

/-- Before the first block. -/
def empty : Output := ⟨[], [], [], []⟩

/-- Writes a line, and remembers under its number what it waits for. -/
def emit (out : Output) (line : Line) : Output :=
  let index := out.code.length
  match line.fixup with
  | .settled => { out with code := out.code ++ [line.instruction] }
  | .ahead lines =>
    { out with code := out.code ++ [{ line.instruction with dst := .imm (index + lines : Nat) }] }
  | .block target =>
    { out with code := out.code ++ [line.instruction], jumps := out.jumps ++ [(index, target)] }
  | .callee kind name =>
    { out with code := out.code ++ [line.instruction], patches := out.patches ++ [⟨index, kind, name⟩] }

/-- Writes a block, the address of which is where the code ends. -/
def emitBlock (out : Output) (lines : List Line) : Output :=
  lines.foldl emit { out with starts := out.starts ++ [out.code.length] }

end Output

/-- Gives each jump the address of its block. -/
def settleJumps (starts : List Nat) (code : List Instruction) :
    List (Nat × BlockId) → Except LowerError (List Instruction)
  | [] => .ok code
  | jump :: rest =>
    match starts[jump.2.index]? with
    | none => .error (.unknownBlock jump.2)
    | some start => settleJumps starts (code.modify jump.1 fun i => { i with dst := .imm start }) rest

/-- The fragment of a function whose blocks have been written. -/
def Output.fragment (out : Output) (name : String) (s : State) : Except LowerError Fragment := do
  let code ← settleJumps out.starts out.code out.jumps
  return { name, code, frame := s.frame, callSites := s.callSites, patches := out.patches }

/-! ## What has been written -/

/-- The instruction of a line as it is written, before jumps are settled. -/
def Line.draft (index : Nat) (line : Line) : Instruction :=
  match line.fixup with
  | .ahead lines => { line.instruction with dst := .imm (index + lines : Nat) }
  | _ => line.instruction

/-- The jump of the line at address `index`, if it waits for a block. -/
def Line.jump? (index : Nat) (line : Line) : Option (Nat × BlockId) :=
  match line.fixup with
  | .block target => some (index, target)
  | _ => none

namespace Output

theorem emit_eq (out : Output) (line : Line) : out.emit line =
    { out with
      code := out.code ++ [line.draft out.code.length]
      patches := out.patches ++ (line.patch? out.code.length).toList
      jumps := out.jumps ++ (line.jump? out.code.length).toList } := by
  cases hfixup : line.fixup <;> simp [emit, Line.draft, Line.patch?, Line.jump?, hfixup]

/-- **After some lines,** each patch and each jump has the number of its line. -/
theorem emits (out : Output) (lines : List Line) : lines.foldl emit out =
    { out with
      code := out.code ++ (lines.zipIdx out.code.length).map fun p => p.1.draft p.2
      patches := out.patches ++ (lines.zipIdx out.code.length).filterMap fun p => p.1.patch? p.2
      jumps := out.jumps ++ (lines.zipIdx out.code.length).filterMap fun p => p.1.jump? p.2 } := by
  induction lines generalizing out with
  | nil => simp
  | cons line lines ih =>
    rw [List.foldl_cons, ih, emit_eq, List.zipIdx_cons]
    simp [List.filterMap_eq_flatMap_toList]

theorem length_code_emits (out : Output) (lines : List Line) :
    (lines.foldl emit out).code.length = out.code.length + lines.length := by
  rw [emits]
  simp

/-- **After some blocks,** the addresses of the blocks are known. -/
theorem emitBlocks (out : Output) (blocks : List (List Line)) : blocks.foldl emitBlock out =
    { blocks.flatten.foldl emit out with
      starts := out.starts ++ blockStarts out.code.length (blocks.map List.length) } := by
  induction blocks generalizing out with
  | nil => simp [blockStarts]
  | cons lines blocks ih =>
    rw [List.foldl_cons, ih, emitBlock, length_code_emits]
    simp [emits, blockStarts]

end Output

/-! ## Settling jumps by number -/

theorem Line.resolve_of_jump?_none {line : Line} {index : Nat} (h : line.jump? index = none)
    (starts : List Nat) : line.resolve starts index = .ok (line.draft index) := by
  cases hfixup : line.fixup <;> simp [Line.jump?, Line.resolve, Line.draft, hfixup] at h ⊢

theorem resolveLines_cons_ok {starts : List Nat} {index : Nat} {line : Line} {i : Instruction}
    (h : line.resolve starts index = .ok i) (lines : List Line) :
    resolveLines starts index (line :: lines) =
      (resolveLines starts (index + 1) lines).map (i :: ·) := by
  rw [resolveLines, h]
  cases resolveLines starts (index + 1) lines <;> rfl

theorem modify_behind {α : Type} (front rest : List α) (a : α) (g : α → α) :
    (front ++ a :: rest).modify front.length g = front ++ g a :: rest := by
  simp [List.modify_eq_take_cons_drop]

/-- **A jump that is settled by its number is settled on its line.** By induction on the lines, behind code
that is settled already. -/
theorem settleJumps_draft (starts : List Nat) (front : List Instruction) (lines : List Line) :
    settleJumps starts (front ++ (lines.zipIdx front.length).map fun p => p.1.draft p.2)
        ((lines.zipIdx front.length).filterMap fun p => p.1.jump? p.2) =
      (resolveLines starts front.length lines).map (front ++ ·) := by
  induction lines generalizing front with
  | nil => simp [settleJumps, resolveLines, Except.map]
  | cons line lines ih =>
    -- behind the first line, once its instruction is settled
    have hbehind {i : Instruction} (hi : line.resolve starts front.length = .ok i) :
        settleJumps starts (front ++ i :: (lines.zipIdx (front.length + 1)).map fun p => p.1.draft p.2)
            ((lines.zipIdx (front.length + 1)).filterMap fun p => p.1.jump? p.2) =
          (resolveLines starts front.length (line :: lines)).map (front ++ ·) := by
      have hrest := ih (front ++ [i])
      rw [List.length_append, List.length_singleton, List.append_assoc, List.singleton_append] at hrest
      rw [hrest, resolveLines_cons_ok hi]
      cases resolveLines starts (front.length + 1) lines <;> simp [Except.map]
    rw [List.zipIdx_cons, List.map_cons]
    by_cases hblock : ∃ target, line.fixup = .block target
    · obtain ⟨target, hfixup⟩ := hblock
      have hjump : line.jump? front.length = some (front.length, target) := by
        rw [Line.jump?, hfixup]
      have hdraft : line.draft front.length = line.instruction := by rw [Line.draft, hfixup]
      rw [List.filterMap_cons_some (f := fun p : Line × Nat => p.1.jump? p.2) hjump, hdraft, settleJumps]
      cases hstart : starts[target.index]? with
      | none =>
        have hunknown : line.resolve starts front.length = .error (.unknownBlock target) := by
          simp [Line.resolve, hfixup, hstart]
        rw [resolveLines, hunknown]
        rfl
      | some start =>
        dsimp only
        rw [modify_behind]
        apply hbehind
        simp [Line.resolve, hfixup, hstart]
    · have hjump : line.jump? front.length = none := by
        cases hfixup : line.fixup with
        | block target => exact absurd ⟨target, hfixup⟩ hblock
        | _ => rw [Line.jump?, hfixup]
      rw [List.filterMap_cons_none (f := fun p : Line × Nat => p.1.jump? p.2) hjump]
      exact hbehind (Line.resolve_of_jump?_none hjump starts)

/-- **The fragment is the one that is written line by line.** -/
theorem fragmentOf_eq_output (name : String) (s : State) (blocks : List (List Line)) :
    fragmentOf name s blocks = (blocks.foldl Output.emitBlock .empty).fragment name s := by
  have hsettle := settleJumps_draft (blockStarts 0 (blocks.map List.length)) [] blocks.flatten
  rw [Output.emitBlocks, Output.emits]
  unfold Output.fragment fragmentOf
  simp only [Output.empty, List.nil_append, List.length_nil] at hsettle ⊢
  rw [hsettle]
  cases resolveLines (blockStarts 0 (blocks.map List.length)) 0 blocks.flatten <;> rfl

end DisBackend
