import DisBackend.Linking.Patch
import DisBackend.Lowering.Error

/-!
# `Lowering.Line` — code before its addresses are known

Lowering writes lines: instructions that may still wait for a branch target or for a callee. A target
is so many lines ahead, or the start of a block. The lines of a function are position independent, so
that the code of a block is the code of its instructions one after the other; one last pass turns
targets into addresses.

## Contents

* `Target`, `Fixup`, `Line`;
* `blockStarts` — the addresses of blocks, from the lengths of their code;
* `Line.resolve`, `resolveLines` — targets turned into addresses;
* `patchesOf` — the patches that calls wait for.
-/

namespace DisBackend

open Ssa (BlockId)

/-- What a line waits for. -/
inductive Fixup where
  /-- Nothing. -/
  | settled
  /-- The destination is the address of the line so many lines ahead. -/
  | ahead (lines : Nat)
  /-- The destination is the address of a block. -/
  | block (target : BlockId)
  /-- A callee has to be placed first. -/
  | callee (kind : PatchKind) (name : String)
  deriving DecidableEq, Repr

/-- An instruction and what it waits for. -/
structure Line where
  instruction : Instruction
  fixup : Fixup := .settled
  deriving DecidableEq, Repr

/-- The addresses of pieces of code of the given lengths, the first at `start`. -/
def blockStarts (start : Nat) : List Nat → List Nat
  | [] => []
  | length :: rest => start :: blockStarts (start + length) rest

/-- The instruction of a line at address `index`, where `starts` are the addresses of the blocks. -/
def Line.resolve (starts : List Nat) (index : Nat) (line : Line) : Except LowerError Instruction :=
  match line.fixup with
  | .settled | .callee .. => .ok line.instruction
  | .ahead lines => .ok { line.instruction with dst := .imm (index + lines : Nat) }
  | .block target =>
    match starts[target.index]? with
    | some start => .ok { line.instruction with dst := .imm start }
    | none => .error (.unknownBlock target)

/-- The instructions of lines, the first of which is at address `index`. -/
def resolveLines (starts : List Nat) : (index : Nat) → List Line → Except LowerError (List Instruction)
  | _, [] => .ok []
  | index, line :: rest => do
    let i ← line.resolve starts index
    let is ← resolveLines starts (index + 1) rest
    return i :: is

/-- The patch of the line at address `index`, if it waits for a callee. -/
def Line.patch? (index : Nat) (line : Line) : Option Patch :=
  match line.fixup with
  | .callee kind name => some ⟨index, kind, name⟩
  | _ => none

/-- The patches of lines, the first of which is at address 0. -/
def patchesOf (lines : List Line) : List Patch :=
  lines.zipIdx.filterMap fun (line, index) => line.patch? index

end DisBackend
