import DisBackend.Proofs.Lowering.Slots

/-!
# `Proofs.Lowering.Lines` — the code of a function, line by line

The simulation of a function starts from its instructions and finds their code. Here it is the other way
round: every line of the code was written for one instruction, in one of the states that lowering went
through, and these states are in the order of the code.

## Contents

* `Function.numbered`, `Lowering.lines` — instructions and lines in the order of the code;
* `Lowering.Trace`, `Lowering.trace`, `Trace.grows` — the states that lowering went through;
* `Lowering.code_of_line`, `Lowering.piece_of_line` — the instruction of a line, and the piece it is in;
* `Lowering.mem_patches_iff` — the lines that wait for a callee.
-/

namespace DisBackend

open Ssa (BlockId Function Instr Ty ValueId)

/-- The instructions of a function in order, each with its block. -/
def Ssa.Function.numbered (f : Function) : List ((Ssa.Block × Nat) × Instr) :=
  f.blocks.zipIdx.flatMap fun b => b.1.instructions.map fun i => (b, i)

theorem Ssa.Function.mem_of_numbered {f : Function} {q : Nat} {b : Ssa.Block × Nat} {i : Instr}
    (h : f.numbered[q]? = some (b, i)) : i ∈ f.instructions := by
  obtain ⟨b', hb', hmem⟩ := List.mem_flatMap.mp (List.mem_of_getElem? h)
  obtain ⟨j, hj, he⟩ := List.mem_map.mp hmem
  cases he
  obtain ⟨n, hn⟩ := List.mem_iff_getElem?.mp hb'
  rw [List.getElem?_zipIdx, Option.map_eq_some_iff] at hn
  obtain ⟨block, hblock, rfl⟩ := hn
  exact List.mem_flatMap.mpr ⟨block, List.mem_of_getElem? hblock, hj⟩

theorem resolveLines_ok {starts : List Nat} {index : Nat} {lines : List Line} {is : List Instruction}
    (h : resolveLines starts index lines = .ok is) {n : Nat} {line : Line}
    (hn : lines[n]? = some line) :
    ∃ i, is[n]? = some i ∧ line.resolve starts (index + n) = .ok i := by
  induction lines generalizing index is n with
  | nil => simp at hn
  | cons line' lines ih =>
    simp only [resolveLines, except_bind_ok_iff, except_pure_ok_iff] at h
    obtain ⟨j, hj, js, hjs, rfl⟩ := h
    cases n with
    | zero =>
      cases hn
      exact ⟨j, rfl, hj⟩
    | succ n =>
      obtain ⟨i, hi, hresolve⟩ := ih hjs hn
      refine ⟨i, hi, ?_⟩
      rw [← hresolve]
      congr 1
      omega

theorem length_resolveLines {starts : List Nat} {index : Nat} {lines : List Line}
    {is : List Instruction} (h : resolveLines starts index lines = .ok is) : is.length = lines.length := by
  induction lines generalizing index is with
  | nil => cases h; rfl
  | cons line lines ih =>
    simp only [resolveLines, except_bind_ok_iff, except_pure_ok_iff] at h
    obtain ⟨j, -, js, hjs, rfl⟩ := h
    rw [List.length_cons, List.length_cons, ih hjs]

theorem mem_patchesOf_iff {lines : List Line} {n : Nat} {kind : PatchKind} {name : String} :
    ⟨n, kind, name⟩ ∈ patchesOf lines ↔
      ∃ line, lines[n]? = some line ∧ line.fixup = .callee kind name := by
  simp only [patchesOf, List.mem_filterMap, Prod.exists, List.mem_zipIdx_iff_getElem?]
  constructor
  · rintro ⟨line, m, hline, hpatch⟩
    cases hfixup : line.fixup with
    | callee kind' name' =>
      simp only [Line.patch?, hfixup, Option.some.injEq, Patch.mk.injEq] at hpatch
      obtain ⟨rfl, rfl, rfl⟩ := hpatch
      exact ⟨line, hline, hfixup⟩
    | settled => simp [Line.patch?, hfixup] at hpatch
    | ahead lines => simp [Line.patch?, hfixup] at hpatch
    | block target => simp [Line.patch?, hfixup] at hpatch
  · rintro ⟨line, hline, hfixup⟩
    exact ⟨line, n, hline, by simp [Line.patch?, hfixup]⟩

namespace Lowering

variable {f : Function} {c c' : Context} {fragment : Fragment} (L : Lowering f c fragment c')

/-- The lines of the function, in order. -/
def lines : List Line := L.pieces.flatten.flatten

/-- The number of the first line of piece number `q`. -/
def pieceStart (q : Nat) : Nat := (L.pieces.flatten.take q).flatten.length

/-- The states that lowering went through, one before each piece and one at the end. -/
structure Trace where
  state : Nat → State
  first : state 0 = L.first
  last : state f.numbered.length = L.final
  emits : ∀ (q : Nat) (b : Ssa.Block × Nat) (i : Instr) (lines : List Line),
    f.numbered[q]? = some (b, i) → L.pieces.flatten[q]? = some lines →
      Emits L.env ⟨b.2⟩ (state q) i lines (state (q + 1))

theorem emitted_flat : Threaded (fun s (p : (Ssa.Block × Nat) × Instr) lines t =>
    Emits L.env ⟨p.1.2⟩ s p.2 lines t) L.first f.numbered L.pieces.flatten L.final :=
  Threaded.flatten (Q := fun (b : Ssa.Block × Nat) s i lines t => Emits L.env ⟨b.2⟩ s i lines t)
    L.emitted

/-- **Every lowering has a trace.** -/
theorem trace : Nonempty L.Trace := by
  obtain ⟨state, hfirst, hlast, hstep⟩ := L.emitted_flat.states
  exact ⟨⟨state, hfirst, hlast, fun q b i lines hb hlines => hstep q (b, i) lines hb hlines⟩⟩

theorem length_numbered : f.numbered.length = L.pieces.flatten.length := L.emitted_flat.length_eq

theorem lines_eq : L.lines = (L.pieces.map List.flatten).flatten := List.flatten_flatten

/-- Every line is an instruction of the code, once its target is resolved. -/
theorem code_of_line {n : Nat} {line : Line} (h : L.lines[n]? = some line) :
    ∃ i, fragment.code[n]? = some i ∧ line.resolve L.starts n = .ok i := by
  rw [L.lines_eq] at h
  obtain ⟨i, hi, hresolve⟩ := resolveLines_ok L.resolved h
  rw [Nat.zero_add] at hresolve
  exact ⟨i, hi, hresolve⟩

theorem length_code : fragment.code.length = L.lines.length := by
  rw [L.lines_eq]
  exact length_resolveLines L.resolved

theorem mem_patches_iff {n : Nat} {kind : PatchKind} {name : String} :
    ⟨n, kind, name⟩ ∈ fragment.patches ↔
      ∃ line, L.lines[n]? = some line ∧ line.fixup = .callee kind name := by
  rw [L.fragment_patches, L.lines_eq]
  exact mem_patchesOf_iff

/-- Every line is one of a piece, which was written for one instruction. -/
theorem piece_of_line {n : Nat} {line : Line} (h : L.lines[n]? = some line) :
    ∃ (q r : Nat) (b : Ssa.Block × Nat) (i : Instr) (lines : List Line),
      f.numbered[q]? = some (b, i) ∧ L.pieces.flatten[q]? = some lines ∧ lines[r]? = some line ∧
      n = L.pieceStart q + r := by
  obtain ⟨q, r, lines, hlines, hline, hn⟩ := exists_of_getElem?_flatten h
  have hlt : q < f.numbered.length := by
    rw [L.length_numbered]
    exact (List.getElem?_eq_some_iff.mp hlines).1
  exact ⟨q, r, f.numbered[q].1, f.numbered[q].2, lines, List.getElem?_eq_getElem hlt, hlines, hline, hn⟩

theorem line_of_piece {q r : Nat} {lines : List Line} {line : Line}
    (hlines : L.pieces.flatten[q]? = some lines) (hr : lines[r]? = some line) :
    L.lines[L.pieceStart q + r]? = some line :=
  getElem?_flatten hlines hr

/-- The lines of a piece lie before those of the pieces after it. -/
theorem pieceStart_add_lt {q q' r : Nat} {lines : List Line} (hlines : L.pieces.flatten[q]? = some lines)
    (hr : r < lines.length) (h : q < q') : L.pieceStart q + r < L.pieceStart q' := by
  unfold pieceStart
  obtain ⟨rest, hrest⟩ := List.take_prefix_take_left (l := L.pieces.flatten) (show q + 1 ≤ q' from h)
  rw [← hrest, List.take_add_one, hlines, List.flatten_append, List.flatten_append, List.length_append,
    List.length_append]
  simp only [Option.toList_some, List.flatten_cons, List.flatten_nil, List.append_nil]
  omega

namespace Trace

variable {L} (T : L.Trace)

/-- The states are in order. -/
theorem grows {q q' : Nat} (h : q ≤ q') (hq' : q' ≤ f.numbered.length) :
    (T.state q).Grows (T.state q') := by
  induction q' with
  | zero =>
    rw [Nat.le_zero.mp h]
    exact .refl _
  | succ q' ih =>
    rcases Nat.lt_or_eq_of_le h with hlt | rfl
    · have hi : f.numbered[q']? = some (f.numbered[q'].1, f.numbered[q'].2) :=
        List.getElem?_eq_getElem hq'
      have hpiece := List.getElem?_eq_getElem (L.length_numbered ▸ hq')
      exact (ih (by omega) (by omega)).trans (T.emits q' _ _ _ hi hpiece).grows
    · exact .refl _

end Trace
end Lowering
end DisBackend
