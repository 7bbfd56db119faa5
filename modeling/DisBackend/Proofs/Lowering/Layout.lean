import DisBackend.Proofs.Context
import DisBackend.Proofs.Lowering.Emission
import DisBackend.Proofs.Threaded

/-!
# `Proofs.Lowering.Layout` — where the code of an instruction lies

Lowering a function threads a state through its blocks and their instructions. The state only grows, so
that whatever an instruction found there is still there at the end; and the lines of an instruction lie
in the fragment at an address of their own, with their targets turned into addresses.

## Contents

* `State.Grows`, `Emits.grows` — the state only grows;
* `Block.Shape` — blocks that control can go through;
* `Placed` — lines that lie in code from some address on, resolved;
* `Lowering`, `lowerFunction_lowering` — all there is to know of a function that was lowered;
* `Lowering.address`, `Lowering.instr` — the address of an instruction, and what lies there.
-/

namespace DisBackend

open Ssa (BlockId Function Instr Ty ValueId)

/-! ## The state only grows -/

/-- `t` is `s` with perhaps more in its context, in its frame and among its call sites. -/
structure State.Grows (s t : State) : Prop where
  context : s.context.Grows t.context
  frame : s.frame.words <+: t.frame.words
  callSites : s.callSites <+: t.callSites

namespace State.Grows

theorem refl (s : State) : s.Grows s :=
  ⟨Context.Grows.refl _, List.prefix_rfl, List.prefix_rfl⟩

theorem trans {s t u : State} (h : s.Grows t) (h' : t.Grows u) : s.Grows u :=
  ⟨h.context.trans h'.context, h.frame.trans h'.frame, h.callSites.trans h'.callSites⟩

/-- New words at the end of the frame. -/
theorem of_frame (s : State) (words : List Bool) :
    s.Grows { s with frame := ⟨s.frame.words ++ words⟩ } :=
  ⟨Context.Grows.refl _, List.prefix_append _ _, List.prefix_rfl⟩

/-- A larger context. -/
theorem of_context (s : State) {c : Context} (h : s.context.Grows c) :
    s.Grows { s with context := c } :=
  ⟨h, List.prefix_rfl, List.prefix_rfl⟩

end State.Grows

theorem Moved.grows {moves : List Move} {s s' : State} {lines : List Line}
    (h : Moved moves s lines s') : s.Grows s' := by
  cases h with
  | direct _ => exact .refl s
  | through _ => exact .of_frame s _

theorem CallResult.grows {env : Env} {callFrame : Int} {s s' : State} {result : Option Ty}
    {dst : Option ValueId} {lines : List Line}
    (h : CallResult env callFrame s result dst lines s') : s.Grows s' := by
  cases h with
  | none => exact .refl s
  | kept _ => exact .refl s
  | dropped => exact .of_frame s _

theorem NativeFrame.grows {native : SysFunction} {index : Nat} {slots : List Slot} {callFrame : Int}
    {s s' : State} {line : Line} (h : NativeFrame native index slots callFrame s line s') :
    s.Grows s' := by
  cases h with
  | variadic _ _ _ => exact ⟨Context.Grows.refl _, List.prefix_rfl, List.prefix_append _ _⟩
  | fixed _ _ => exact .refl s

theorem NativeResult.grows {env : Env} {native : SysFunction} {s s' : State} {dst : Option ValueId}
    {offset : Int} (h : NativeResult env native s dst offset s') : s.Grows s' := by
  cases h with
  | kept _ _ => exact .refl s
  | dropped => exact .of_frame s _

/-- **Lowering an instruction only adds to the state.** -/
theorem Emits.grows {env : Env} {source : BlockId} {s s' : State} {i : Instr} {lines : List Line}
    (h : Emits env source s i lines s') : s.Grows s' := by
  cases h with
  | constCell _ _ hintern => exact .of_context s (Context.grows_of_intern hintern)
  | new _ _ _ => exact ⟨Context.Grows.refl _, List.prefix_rfl, List.prefix_append _ _⟩
  | call _ _ _ _ _ hresult => exact (State.Grows.of_frame s [false]).trans hresult.grows
  | callNative hfound _ himport hframe hresult =>
    have hcontext := Context.grows_of_nativeImport hfound himport
    have hword := (State.Grows.of_context s hcontext).trans (State.Grows.of_frame _ [false])
    exact (hword.trans hframe.grows).trans hresult.grows
  | jump _ _ hmoved => exact hmoved.grows
  | branchMoving _ _ _ _ _ _ helse hthen => exact helse.grows.trans hthen.grows
  | _ => exact .refl s

/-! ## Lines in their places -/

/-- `lines` lie in `code` from address `pc` on, with their targets resolved. -/
def Placed (starts : List Nat) (code : List Instruction) : Nat → List Line → Prop
  | _, [] => True
  | pc, line :: rest =>
    (∃ i, code[pc]? = some i ∧ line.resolve starts pc = .ok i) ∧ Placed starts code (pc + 1) rest

section Placed

variable {starts : List Nat} {code : List Instruction}

theorem placed_append {pc : Nat} {front back : List Line} :
    Placed starts code pc (front ++ back) ↔
      Placed starts code pc front ∧ Placed starts code (pc + front.length) back := by
  induction front generalizing pc with
  | nil => simp [Placed]
  | cons line front ih =>
    have hlen : pc + (line :: front).length = pc + 1 + front.length := by
      rw [List.length_cons]; omega
    rw [hlen, List.cons_append, Placed, Placed, ih, and_assoc]

/-- A line that waits for nothing is in the code as it is. -/
theorem Placed.settled {pc : Nat} {i : Instruction} {rest : List Line}
    (h : Placed starts code pc (⟨i, .settled⟩ :: rest)) :
    code[pc]? = some i ∧ Placed starts code (pc + 1) rest := by
  obtain ⟨⟨j, hj, hresolve⟩, hrest⟩ := h
  cases hresolve
  exact ⟨hj, hrest⟩

/-- A line that goes ahead has the address as its destination. -/
theorem Placed.ahead {pc lines : Nat} {i : Instruction} {rest : List Line}
    (h : Placed starts code pc (⟨i, .ahead lines⟩ :: rest)) :
    code[pc]? = some { i with dst := .imm (pc + lines : Nat) } ∧ Placed starts code (pc + 1) rest := by
  obtain ⟨⟨j, hj, hresolve⟩, hrest⟩ := h
  cases hresolve
  exact ⟨hj, hrest⟩

/-- A line that goes to a block has the address of the block as its destination. -/
theorem Placed.block {pc start : Nat} {i : Instruction} {target : BlockId} {rest : List Line}
    (h : Placed starts code pc (⟨i, .block target⟩ :: rest))
    (hstart : starts[target.index]? = some start) :
    code[pc]? = some { i with dst := .imm start } ∧ Placed starts code (pc + 1) rest := by
  obtain ⟨⟨j, hj, hresolve⟩, hrest⟩ := h
  simp only [Line.resolve, hstart, Except.ok.injEq] at hresolve
  rw [hresolve]
  exact ⟨hj, hrest⟩

theorem placed_of_resolveLines {front is : List Instruction} {lines : List Line}
    (h : resolveLines starts front.length lines = .ok is) :
    Placed starts (front ++ is) front.length lines := by
  induction lines generalizing front is with
  | nil => trivial
  | cons line lines ih =>
    simp only [resolveLines, except_bind_ok_iff, except_pure_ok_iff] at h
    obtain ⟨i, hi, rest, hrest, rfl⟩ := h
    refine ⟨⟨i, by simp, hi⟩, ?_⟩
    have hlen : (front ++ [i]).length = front.length + 1 := by simp
    have hplaced := @ih (front ++ [i]) rest (by rw [hlen]; exact hrest)
    rw [hlen, List.append_assoc, List.singleton_append] at hplaced
    exact hplaced

theorem placed_flatten {pieces : List (List Line)} {pc k : Nat} {piece : List Line}
    (h : Placed starts code pc pieces.flatten) (hk : pieces[k]? = some piece) :
    Placed starts code (pc + (pieces.take k).flatten.length) piece := by
  obtain ⟨hlt, rfl⟩ := List.getElem?_eq_some_iff.mp hk
  have hsplit : pieces.flatten
      = (pieces.take k).flatten ++ (pieces[k] ++ (pieces.drop (k + 1)).flatten) := by
    rw [← List.flatten_cons, ← List.flatten_append, ← List.drop_eq_getElem_cons hlt,
      List.take_append_drop]
  rw [hsplit, placed_append, placed_append] at h
  exact h.2.1

end Placed

theorem getElem?_blockStarts {lengths : List Nat} {start k : Nat} (hk : k < lengths.length) :
    (blockStarts start lengths)[k]? = some (start + (lengths.take k).sum) := by
  induction lengths generalizing start k with
  | nil => exact absurd hk (Nat.not_lt_zero k)
  | cons length lengths ih =>
    cases k with
    | zero => simp [blockStarts]
    | succ k =>
      rw [blockStarts, List.getElem?_cons_succ, ih (Nat.lt_of_succ_lt_succ hk)]
      simp [Nat.add_assoc]

/-! ## Blocks -/

namespace Ssa

/-- A block that control can go through, in a function of `count` blocks. -/
structure Block.Shape (count : Nat) (b : Block) : Prop where
  terminated : ∃ last, b.instructions.getLast? = some last ∧ last.isTerminator ∧
    ∀ target ∈ last.successors, target.index < count
  straight : ∀ i ∈ b.instructions.dropLast, i.isTerminator = false
  phis_first : misplacedPhi? b.instructions = none

theorem Block.shape_of_fault? {count : Nat} {id : BlockId} {b : Block} (h : b.fault? count id = none) :
    b.Shape count := by
  unfold Block.fault? at h
  cases hlast : b.instructions.getLast? with
  | none => rw [hlast] at h; cases h
  | some last =>
    simp only [hlast] at h
    by_cases hterm : last.isTerminator
    · rw [hterm, Bool.not_true, if_neg Bool.false_ne_true] at h
      by_cases hearly : b.instructions.dropLast.any Instr.isTerminator
      · rw [if_pos hearly] at h; cases h
      · rw [if_neg hearly] at h
        cases hphi : misplacedPhi? b.instructions with
        | some phi => rw [hphi] at h; cases h
        | none =>
          simp only [hphi, Option.map_eq_none_iff, List.find?_eq_none] at h
          refine ⟨⟨last, hlast, hterm, fun target ht => ?_⟩, ?_, hphi⟩
          · have hcount := h target ht
            simpa using hcount
          · simpa using hearly
    · rw [if_pos (by simpa using hterm)] at h
      cases h

theorem Function.shape_of_shapeFault? {f : Function} (h : f.shapeFault? = none) {b : BlockId}
    {block : Block} (hb : f.block? b = some block) : block.Shape f.blocks.length := by
  unfold Function.shapeFault? at h
  by_cases hdecl : f.isDeclaration
  · rw [if_pos hdecl] at h; cases h
  · rw [if_neg hdecl] at h
    have hmem : (block, b.index) ∈ f.blocks.zipIdx := by
      rw [List.mem_iff_getElem?]
      refine ⟨b.index, ?_⟩
      have hget : f.blocks[b.index]? = some block := hb
      rw [List.getElem?_zipIdx, hget]
      simp
    exact Block.shape_of_fault? (List.findSome?_eq_none_iff.mp h _ hmem)

theorem Function.mem_instructions {f : Function} {b : BlockId} {block : Block} {i : Instr}
    (hb : f.block? b = some block) (hi : i ∈ block.instructions) : i ∈ f.instructions :=
  List.mem_flatMap.mpr ⟨block, List.mem_of_getElem? hb, hi⟩

end Ssa

/-! ## Lowered functions -/

/-- What lowering the instructions of block number `b.2` can do. -/
def EmitsBlock (env : Env) (s : State) (b : Ssa.Block × Nat) (pieces : List (List Line))
    (s' : State) : Prop :=
  Threaded (Emits env ⟨b.2⟩) s b.1.instructions pieces s'

theorem lowerInstrs_emits {env : Env} {source : BlockId} {instrs : List Instr} {s s' : State}
    {lines : List Line} (h : lowerInstrs env source instrs s = .ok lines s') :
    ∃ pieces, lines = pieces.flatten ∧ Threaded (Emits env source) s instrs pieces s' := by
  induction instrs generalizing s lines with
  | nil =>
    obtain ⟨rfl, rfl⟩ := pure_ok_iff.mp h
    exact ⟨[], rfl, .nil⟩
  | cons i instrs ih =>
    simp only [lowerInstrs, bind_ok_iff, pure_ok_iff] at h
    obtain ⟨front, t, hfront, back, _, hback, rfl, rfl⟩ := h
    obtain ⟨pieces, rfl, hpieces⟩ := ih hback
    exact ⟨front :: pieces, rfl, .cons (lowerInstr_emits hfront) hpieces⟩

theorem lowerBlocks_emits {env : Env} {index : Nat} {blocks : List Ssa.Block} {s s' : State}
    {lines : List (List Line)} (h : lowerBlocks env index blocks s = .ok lines s') :
    ∃ pieces, lines = pieces.map List.flatten ∧
      Threaded (EmitsBlock env) s (blocks.zipIdx index) pieces s' := by
  induction blocks generalizing index s lines with
  | nil =>
    obtain ⟨rfl, rfl⟩ := pure_ok_iff.mp h
    exact ⟨[], rfl, .nil⟩
  | cons block blocks ih =>
    simp only [lowerBlocks, bind_ok_iff, pure_ok_iff] at h
    obtain ⟨front, t, hfront, back, _, hback, rfl, rfl⟩ := h
    obtain ⟨piece, rfl, hpiece⟩ := lowerInstrs_emits hfront
    obtain ⟨pieces, rfl, hpieces⟩ := ih hback
    exact ⟨piece :: pieces, rfl, .cons hpiece hpieces⟩

/-- A function `f` that was lowered in the context `c`, how that went, and what came of it. -/
structure Lowering (f : Function) (c : Context) (fragment : Fragment) (c' : Context) where
  /-- The values of the function. -/
  types : Typing
  /-- The words of the values. -/
  slots : List (ValueId × Slot)
  /-- The frame that holds just these words. -/
  frame : Frame
  /-- The lines of each instruction of each block. -/
  pieces : List (List (List Line))
  /-- The state at the end. -/
  final : State
  shape : f.shapeFault? = none
  typed : valueTypes c f = .ok types
  assigned : assignSlots {} types = .ok (slots, frame)
  emitted : Threaded (EmitsBlock ⟨f, slots⟩) ⟨c, frame, [], []⟩ f.blocks.zipIdx pieces final
  resolved : resolveLines (blockStarts 0 (pieces.map fun b => b.flatten.length)) 0
    (pieces.map List.flatten).flatten = .ok fragment.code
  fragment_name : fragment.name = f.name
  fragment_frame : fragment.frame = final.frame
  fragment_callSites : fragment.callSites = final.callSites
  fragment_patches : fragment.patches = patchesOf (pieces.map List.flatten).flatten
  fragment_handlers : fragment.handlers = []
  context_grows : final.context.Grows c'
  context_cells : c'.cells = final.context.cells
  context_natives : c'.natives = final.context.natives

/-- **A function that was lowered has a `Lowering`.** -/
theorem lowerFunction_lowering {f : Function} {c c' : Context} {fragment : Fragment}
    (h : lowerFunction f c = .ok fragment c') : Nonempty (Lowering f c fragment c') := by
  unfold lowerFunction at h
  cases hshape : f.shapeFault? with
  | some e => rw [hshape] at h; cases h
  | none =>
    simp only [hshape] at h
    cases htypes : valueTypes c f with
    | error e => rw [htypes] at h; cases h
    | ok types =>
      simp only [htypes] at h
      cases hslots : assignSlots {} types with
      | error e => rw [hslots] at h; cases h
      | ok r =>
        obtain ⟨slots, frame⟩ := r
        simp only [hslots, lowerBody] at h
        cases hblocks : lowerBlocks ⟨f, slots⟩ 0 f.blocks ⟨c, frame, [], []⟩ with
        | error e s => rw [hblocks] at h; cases h
        | ok lines s =>
          simp only [hblocks] at h
          obtain ⟨pieces, rfl, hemitted⟩ := lowerBlocks_emits hblocks
          cases hfragment : fragmentOf f.name s (pieces.map List.flatten) with
          | error e => rw [hfragment] at h; cases h
          | ok fragment' =>
            simp only [hfragment, EStateM.Result.ok.injEq] at h
            obtain ⟨rfl, rfl⟩ := h
            simp only [fragmentOf, except_bind_ok_iff, except_pure_ok_iff, List.map_map] at hfragment
            obtain ⟨code, hcode, rfl⟩ := hfragment
            exact ⟨⟨types, slots, frame, pieces, s, hshape, htypes, hslots, hemitted, hcode, rfl,
              rfl, rfl, rfl, rfl, .of_log _, rfl, rfl⟩⟩

namespace Lowering

variable {f : Function} {c c' : Context} {fragment : Fragment} (L : Lowering f c fragment c')

/-- What is fixed while the function is lowered. -/
def env : Env := ⟨f, L.slots⟩

/-- The addresses of the blocks. -/
def starts : List Nat := blockStarts 0 (L.pieces.map fun b => b.flatten.length)

/-- The address of a block. -/
def blockAddress (b : Nat) : Nat := ((L.pieces.take b).map fun p => p.flatten.length).sum

/-- The address of the code of instruction `k` of block `b`. -/
def address (b : BlockId) (k : Nat) : Nat :=
  L.blockAddress b.index + ((L.pieces.getD b.index []).take k).flatten.length

theorem address_zero (b : BlockId) : L.address b 0 = L.blockAddress b.index := by
  simp [address]

theorem length_pieces : L.pieces.length = f.blocks.length := by
  rw [← L.emitted.length_eq, List.length_zipIdx]

theorem getElem?_starts {b : Nat} (hb : b < f.blocks.length) :
    L.starts[b]? = some (L.blockAddress b) := by
  rw [starts, getElem?_blockStarts (by rw [List.length_map, L.length_pieces]; exact hb),
    ← List.map_take, Nat.zero_add]
  rfl

theorem placed_all : Placed L.starts fragment.code 0 (L.pieces.map List.flatten).flatten :=
  @placed_of_resolveLines _ [] _ _ L.resolved

/-- The state before the first instruction. -/
def first : State := ⟨c, L.frame, [], []⟩

theorem grows_block {s s' : State} {b : Ssa.Block × Nat} {pieces : List (List Line)}
    (h : EmitsBlock L.env s b pieces s') : s.Grows s' :=
  Threaded.preserves State.Grows.refl State.Grows.trans Emits.grows h

theorem grows : L.first.Grows L.final :=
  Threaded.preserves State.Grows.refl State.Grows.trans L.grows_block L.emitted

/-- The code of block number `b` lies at the address of the block. -/
theorem placed_block {b : Nat} {pieces : List (List Line)} (hb : L.pieces[b]? = some pieces) :
    Placed L.starts fragment.code (L.blockAddress b) pieces.flatten := by
  have hpiece : (L.pieces.map List.flatten)[b]? = some pieces.flatten := by
    rw [List.getElem?_map, hb]; rfl
  have hplaced := placed_flatten L.placed_all hpiece
  rwa [Nat.zero_add, ← List.map_take, List.length_flatten, List.map_map] at hplaced

/-- **The code of an instruction.** Instruction `k` of block `b` was lowered in a state between the
first and the last, and its lines lie at its address. -/
theorem instr {b k : Nat} {block : Ssa.Block} {i : Instr} (hb : f.blocks[b]? = some block)
    (hk : block.instructions[k]? = some i) :
    ∃ lines t t', Emits L.env ⟨b⟩ t i lines t' ∧ L.first.Grows t ∧ t'.Grows L.final ∧
      Placed L.starts fragment.code (L.address ⟨b⟩ k) lines ∧
      L.address ⟨b⟩ (k + 1) = L.address ⟨b⟩ k + lines.length := by
  have hzip : f.blocks.zipIdx[b]? = some (block, b) := by
    rw [List.getElem?_zipIdx, hb]; simp
  obtain ⟨pieces, s, s', hpieces, hbefore, hblock, hafter⟩ := L.emitted.split hzip
  obtain ⟨lines, t, t', hlines, hfront, hemits, hback⟩ := Threaded.split hblock hk
  have hgrows : L.first.Grows s :=
    Threaded.preserves State.Grows.refl State.Grows.trans L.grows_block hbefore
  have hgrows' : s.Grows t :=
    Threaded.preserves State.Grows.refl State.Grows.trans Emits.grows hfront
  have hlast : t'.Grows s' :=
    Threaded.preserves State.Grows.refl State.Grows.trans Emits.grows hback
  have hlast' : s'.Grows L.final :=
    Threaded.preserves State.Grows.refl State.Grows.trans L.grows_block hafter
  have hget : L.pieces.getD b [] = pieces := by rw [List.getD_eq_getElem?_getD, hpieces]; rfl
  refine ⟨lines, t, t', hemits, hgrows.trans hgrows', hlast.trans hlast', ?_, ?_⟩
  · show Placed _ _ (L.blockAddress b + ((L.pieces.getD b []).take k).flatten.length) _
    rw [hget]
    exact placed_flatten (L.placed_block hpieces) hlines
  · show L.blockAddress b + ((L.pieces.getD b []).take (k + 1)).flatten.length
      = L.blockAddress b + ((L.pieces.getD b []).take k).flatten.length + lines.length
    rw [hget, List.take_add_one, hlines, List.flatten_append, List.length_append]
    simp [Nat.add_assoc]

end Lowering

end DisBackend
