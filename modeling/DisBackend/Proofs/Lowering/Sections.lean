import DisBackend.Proofs.Linking.Fragments
import DisBackend.Proofs.Lowering.Lines

/-!
# `Proofs.Lowering.Sections` — the code of a function in its place, instruction by instruction

A line waits for a target, for a callee or for nothing. `Line.linked` is the instruction it becomes once the
function has its place in a module, as a total function. The code of a function is that of its lines, and
falls into sections: one for each instruction of the function, in order.

## Contents

* `Line.linked`, `Lowering.code_linked` — lines in their place;
* `Lowering.sections`, `Lowering.flatten_sections`, `Lowering.length_sections` — the sections of the code;
* `Lowering.section_at` — the section of an instruction, and the lines it comes from;
* `Instruction.movedTo_eq` — instructions that are the same in every place.
-/

namespace DisBackend

open Ssa (BlockId Function Instr Ty ValueId)

/-! ## Lines in their place -/

/-- The instruction that line number `n` of a function becomes, where `starts` are the addresses of the
function's blocks and `place` is where the function lies. -/
def Line.linked (starts : List Nat) (place : Place) (n : Nat) (line : Line) : Instruction :=
  match line.fixup with
  | .settled => line.instruction.movedTo place.start place.callSiteBase
  | .ahead lines =>
    { line.instruction with dst := .imm (n + lines : Nat) }.movedTo place.start place.callSiteBase
  | .block target =>
    { line.instruction with dst := .imm (starts.getD target.index 0 : Nat) }.movedTo place.start
      place.callSiteBase
  | .callee kind name => kind.fill line.instruction ((place.callee? name).getD default)

/-- A line that waits for no address of its function becomes the same instruction wherever it stands. -/
theorem Line.linked_eq {starts : List Nat} {place : Place} {line : Line}
    (h : line.fixup = .settled ∨ ∃ kind name, line.fixup = .callee kind name) (n m : Nat) :
    line.linked starts place n = line.linked starts place m := by
  unfold Line.linked
  rcases h with hfixup | ⟨kind, name, hfixup⟩
  · rw [hfixup]
  · rw [hfixup]

/-- A line that waits for a callee names it, once the callee has its place. -/
theorem Line.linked_callee {starts : List Nat} {place : Place} {n : Nat} {i : Instruction}
    {kind : PatchKind} {name : String} {placement : Placement}
    (h : place.callee? name = some placement) :
    Line.linked starts place n ⟨i, .callee kind name⟩ = kind.fill i placement := by
  show kind.fill i ((place.callee? name).getD default) = _
  rw [h]
  rfl

/-- An instruction that names no address and no descriptor is the same in every place. -/
theorem Instruction.movedTo_eq {i : Instruction} (hbranch : i.opcode.isBranch = false)
    (hsource : i.opcode.typeInSource = false) (hmiddle : i.opcode.typeInMiddle = false)
    (start callSiteBase : Int) : i.movedTo start callSiteBase = i := by
  have hsrc : ¬ (i.opcode = .frame ∨ i.opcode = .new) := by
    rw [← i.opcode.typeInSource_iff, hsource]
    exact Bool.false_ne_true
  have hmid : ¬ i.opcode = .newa := by
    rw [← i.opcode.typeInMiddle_iff, hmiddle]
    exact Bool.false_ne_true
  unfold movedTo
  rw [if_neg hsrc, if_neg hmid, hbranch]
  rfl

namespace Lowering

variable {f : Function} {c c' : Context} {fragment : Fragment} (L : Lowering f c fragment c')
  {place : Place} {linked : LinkedFragment}

/-- **What becomes of a line.** -/
theorem linked_at (h : fragment.LinkedAs place linked) {n : Nat} {line : Line}
    (hn : L.lines[n]? = some line) : linked.code[n]? = some (line.linked L.starts place n) := by
  obtain ⟨i, hi, hresolve⟩ := L.code_of_line hn
  -- no line without a callee is patched, for a patch is that of the line it stands for
  have hmoved (hnot : ∀ kind name, line.fixup ≠ .callee kind name) :
      linked.code[n]? = some (i.movedTo place.start place.callSiteBase) := by
    refine h.moved n i hi ?_
    rintro patch hpatch rfl
    obtain ⟨line', hline', hfixup⟩ := L.mem_patches_iff.mp hpatch
    rw [hn, Option.some.injEq] at hline'
    exact hnot _ _ (hline' ▸ hfixup)
  unfold Line.resolve at hresolve
  unfold Line.linked
  cases hfixup : line.fixup with
  | settled =>
    rw [hfixup] at hresolve
    cases hresolve
    exact hmoved (by rw [hfixup]; exact nofun)
  | ahead lines =>
    rw [hfixup] at hresolve
    cases hresolve
    exact hmoved (by rw [hfixup]; exact nofun)
  | block target =>
    simp only [hfixup] at hresolve
    have hcode := hmoved (by rw [hfixup]; exact nofun)
    cases hstart : L.starts[target.index]? with
    | none => rw [hstart] at hresolve; cases hresolve
    | some start =>
      rw [hstart] at hresolve
      cases hresolve
      show linked.code[n]? = some (Instruction.movedTo _ _ { line.instruction with
        dst := .imm (L.starts.getD target.index 0 : Nat) })
      rw [List.getD_eq_getElem?_getD, hstart]
      exact hcode
  | callee kind name =>
    rw [hfixup] at hresolve
    cases hresolve
    obtain ⟨j, placement, hj, hplacement, hcode⟩ :=
      h.patched _ (L.mem_patches_iff.mpr ⟨line, hn, hfixup⟩)
    rw [hi, Option.some.injEq] at hj
    subst hj
    show linked.code[n]? = some (kind.fill line.instruction ((place.callee? name).getD default))
    rw [hcode, hplacement]
    rfl

/-- A callee that a line waits for has a place. -/
theorem callee_placed (h : fragment.LinkedAs place linked) {n : Nat} {line : Line}
    (hn : L.lines[n]? = some line) {kind : PatchKind} {name : String}
    (hfixup : line.fixup = .callee kind name) : ∃ placement, place.callee? name = some placement := by
  obtain ⟨_, placement, -, hplacement, -⟩ :=
    h.patched _ (L.mem_patches_iff.mpr ⟨line, hn, hfixup⟩)
  exact ⟨placement, hplacement⟩

/-- **The code of a function in its place** is that of its lines. -/
theorem code_linked (h : fragment.LinkedAs place linked) :
    linked.code = L.lines.mapIdx (Line.linked L.starts place) := by
  apply List.ext_getElem?
  intro n
  rw [List.getElem?_mapIdx]
  cases hn : L.lines[n]? with
  | some line => exact L.linked_at h hn
  | none =>
    rw [List.getElem?_eq_none_iff, ← L.length_code, ← h.length, ← List.getElem?_eq_none_iff] at hn
    exact hn

/-! ## Sections -/

/-- The code that was written for each instruction of the function, in the order of the instructions. -/
def sections (place : Place) : List (List Instruction) :=
  L.pieces.flatten.mapIdx fun q lines =>
    lines.mapIdx fun r line => line.linked L.starts place (L.pieceStart q + r)

/-- The sections are the code. -/
theorem flatten_sections (h : fragment.LinkedAs place linked) :
    (L.sections place).flatten = linked.code := by
  rw [L.code_linked h]
  exact flatten_mapIdx_mapIdx (Line.linked L.starts place) L.pieces.flatten

/-- There is one section for each instruction. -/
theorem length_sections (place : Place) : (L.sections place).length = f.numbered.length := by
  unfold sections
  rw [List.length_mapIdx, L.length_numbered]

/-- **The section of an instruction,** and the lines it comes from. -/
theorem section_at {place : Place} {q : Nat} {code : List Instruction}
    (h : (L.sections place)[q]? = some code) :
    ∃ lines, L.pieces.flatten[q]? = some lines ∧
      code = lines.mapIdx fun r line => line.linked L.starts place (L.pieceStart q + r) := by
  unfold sections at h
  rw [List.getElem?_mapIdx, Option.map_eq_some_iff] at h
  obtain ⟨lines, hlines, rfl⟩ := h
  exact ⟨lines, hlines, rfl⟩

/-- The section of lines that stand for the same instructions everywhere. -/
theorem section_of_piece {place : Place} {q : Nat} {lines : List Line}
    (hlines : L.pieces.flatten[q]? = some lines)
    (hfixup : ∀ line ∈ lines, line.fixup = .settled ∨ ∃ kind name, line.fixup = .callee kind name) :
    (L.sections place)[q]? = some (lines.map fun line => line.linked L.starts place 0) := by
  unfold sections
  rw [List.getElem?_mapIdx, hlines, Option.map_some, Option.some.injEq]
  apply List.ext_getElem?
  intro r
  rw [List.getElem?_mapIdx, List.getElem?_map]
  cases hr : lines[r]? with
  | none => rfl
  | some line =>
    rw [Option.map_some, Option.map_some,
      Line.linked_eq (hfixup line (List.mem_of_getElem? hr)) (L.pieceStart q + r) 0]

end Lowering

/-- The instructions of a function by their numbers. -/
theorem Ssa.Function.map_numbered (f : Function) : f.numbered.map Prod.snd = f.instructions := by
  unfold numbered instructions
  rw [List.map_flatMap]
  have hsnd (b : Ssa.Block × Nat) :
      (b.1.instructions.map fun i => (b, i)).map Prod.snd = b.1.instructions := by
    rw [List.map_map]
    exact List.map_id _
  simp only [hsnd]
  rw [← List.flatMap_map, List.zipIdx_map_fst]

end DisBackend
