import DisBackend.Proofs.Collector.Makers
import DisBackend.Proofs.Lowering.Sections

/-!
# `Proofs.Control.Targets` — where the code of a function goes

The lines of an instruction go to one another, to the lines that follow, to blocks of the function, or to a
callee. `LineForm` says which, and what a line names besides. From it follows where the branches of a
function lead once it has its place, and that its last instruction leads nowhere else.

## Contents

* `LineForm`, `Emits.form` — what a line can go to, and which descriptor it can name;
* `Function.numbered_eq_concat`, `Emits.ends`, `Lowering.lines_end` — the last instruction;
* `Lowering.blockAddress_lt`, `Lowering.pieceStart_succ_lt` — blocks and instructions lie in the code;
* `Lowering.Aims`, `Lowering.aims` — what an instruction of a function in its place leads to and names.
-/

namespace DisBackend

open Ssa (BlockId Function Instr Ty ValueId)

/-! ## Forms of lines -/

/-- The call `j` names the function `name`, which the program defines. -/
def CallsOf (s : State) (j : Instr) (name : String) : Prop :=
  (∃ dst arguments, j = .call dst name arguments) ∧
    ∃ target, s.context.program.function? name = some target ∧ target.isDeclaration = false

/-- Line number `r` of the `count` lines that are written for the instruction `j`: where control goes from
it, and which descriptor it names. -/
inductive LineForm (env : Env) (s s' : State) (j : Instr) (count r : Nat) : Line → Prop where
  /-- Control goes on, and no descriptor is named. -/
  | plain {i : Instruction} (opcode : i.opcode.isBranch = false)
      (source : i.opcode.typeInSource = false) (middle : i.opcode.typeInMiddle = false)
      (direct : i.mid.isIndirect = false) : LineForm env s s' j count r ⟨i, .settled⟩
  /-- A call site of the function is named. -/
  | site {opcode : Opcode} {id : Nat} {dst : Operand} (maker : opcode = .frame ∨ opcode = .new)
      (exists_site : id < s'.callSites.length) :
      LineForm env s s' j count r ⟨.binary opcode (.imm id) dst, .settled⟩
  /-- Control may go to a line further down, or to the instruction after this one, if there is one. -/
  | ahead {i : Instruction} {lines : Nat} (opcode : i.opcode.isBranch = true)
      (not_call : i.opcode ≠ .call) (direct : i.mid.isIndirect = false)
      (lands : r + lines < count ∨ (r + lines = count ∧ j.isTerminator = false)) :
      LineForm env s s' j count r ⟨i, .ahead lines⟩
  /-- Control may go to a block of the function. -/
  | block {i : Instruction} {target : BlockId} (opcode : i.opcode.isBranch = true)
      (not_call : i.opcode ≠ .call) (direct : i.mid.isIndirect = false)
      (exists_block : target.index < env.function.blocks.length) :
      LineForm env s s' j count r ⟨i, .block target⟩
  /-- The frame of a callee is named. -/
  | frame {name : String} {base : Int} (calls : CallsOf s j name) :
      LineForm env s s' j count r ⟨.binary .frame (.imm 0) (.fp base), .callee .frameId name⟩
  /-- Control goes to a callee. -/
  | call {name : String} {base : Int} (calls : CallsOf s j name) :
      LineForm env s s' j count r ⟨.binary .call (.fp base) (.imm 0), .callee .callAddress name⟩

section Forms

variable {env : Env} {s s' : State} {j : Instr} {count r : Nat}

theorem form_moveLine (ty : Ty) (src dst : Operand) :
    LineForm env s s' j count r (moveLine ty src dst) := by
  have hopcode : (moveOpcode ty).isBranch = false ∧ (moveOpcode ty).typeInSource = false ∧
      (moveOpcode ty).typeInMiddle = false := by
    cases ty <;> exact ⟨rfl, rfl, rfl⟩
  exact .plain hopcode.1 hopcode.2.1 hopcode.2.2 rfl

theorem form_jumpLine {target : BlockId} {block : Ssa.Block}
    (h : env.function.block? target = some block) : LineForm env s s' j count r (jumpLine target) :=
  .block rfl nofun rfl (List.getElem?_eq_some_iff.mp h).1

theorem form_directLines {moves : List Move} {line : Line} (h : line ∈ directLines moves) :
    LineForm env s s' j count r line := by
  obtain ⟨m, -, rfl⟩ := List.mem_map.mp h
  exact form_moveLine _ _ _

theorem Moved.form {moves : List Move} {t t' : State} {lines : List Line} (h : Moved moves t lines t')
    {line : Line} (hline : line ∈ lines) : LineForm env s s' j count r line := by
  cases h with
  | direct => exact form_directLines hline
  | through =>
    rcases List.mem_append.mp hline with hsaving | hrestoring
    · exact form_directLines hsaving
    · exact form_directLines hrestoring

theorem form_argumentLines {callFrame : Int} {slots : List Slot} {line : Line}
    (h : line ∈ argumentLines callFrame slots) : LineForm env s s' j count r line := by
  obtain ⟨k, hk, rfl⟩ := List.mem_mapIdx.mp h
  exact form_moveLine _ _ _

theorem form_resultLine (result callFrame : Int) :
    LineForm env s s' j count r (resultLine result callFrame) :=
  .plain rfl rfl rfl rfl

theorem CallResult.form {callFrame : Int} {t t' : State} {result : Option Ty} {dst : Option ValueId}
    {lines : List Line} (h : CallResult env callFrame t result dst lines t') {line : Line}
    (hline : line ∈ lines) : LineForm env s s' j count r line := by
  cases h with
  | none => cases hline
  | kept | dropped =>
    obtain rfl := List.mem_singleton.mp hline
    exact form_resultLine _ _

theorem form_mathInstruction {op : Ssa.MathOp} {opcode : Opcode} {lhs rhs dst : Slot}
    (h : mathOpcode? op lhs.ty = some opcode) :
    LineForm env s s' j count r ⟨mathInstruction op opcode lhs rhs dst, .settled⟩ := by
  have hopcode : opcode.isBranch = false ∧ opcode.typeInSource = false ∧
      opcode.typeInMiddle = false := by
    generalize lhs.ty = ty at h
    cases ty with
    | int => cases h; cases op <;> exact ⟨rfl, rfl, rfl⟩
    | real => cases op <;> cases h <;> exact ⟨rfl, rfl, rfl⟩
    | string =>
      have hadd : (if op = .add then some Opcode.addc else none) = some opcode := h
      split at hadd
      · cases hadd; exact ⟨rfl, rfl, rfl⟩
      · cases hadd
    | bool | object => cases h
  unfold mathInstruction
  split
  · exact .plain hopcode.1 hopcode.2.1 hopcode.2.2 rfl
  · exact .plain hopcode.1 hopcode.2.1 hopcode.2.2 rfl

theorem not_call_of_compareOpcode? {op : Ssa.Comparison} {ty : Ty} {opcode : Opcode}
    (h : compareOpcode? op ty = some opcode) : opcode ≠ .call := by
  have hpointers := (pointers?_compareOpcode h).1
  rintro rfl
  cases hpointers

/-! One lemma for each kind of instruction that has more than one line. -/

section Lines

variable {source : BlockId} {lines : List Line} {line : Line}

theorem form_compare {dst lhs rhs : ValueId} {op : Ssa.Comparison}
    (h : Emits env source s (.compare dst op lhs rhs) lines s') (hr : lines[r]? = some line) :
    LineForm env s s' (.compare dst op lhs rhs) lines.length r line := by
  cases h with
  | compare _ _ _ _ hopcode =>
    match r, hr with
    | 0, hr =>
      cases hr
      exact form_moveLine _ _ _
    | 1, hr =>
      cases hr
      -- the branch skips the last line, and a comparison ends no block
      exact .ahead (pointers?_compareOpcode hopcode).2 (not_call_of_compareOpcode? hopcode) rfl
        (.inr ⟨rfl, rfl⟩)
    | 2, hr =>
      cases hr
      exact form_moveLine _ _ _

theorem form_call {dst : Option ValueId} {callee : String} {arguments : List ValueId}
    (h : Emits env source s (.call dst callee arguments) lines s') (hline : line ∈ lines) :
    LineForm env s s' (.call dst callee arguments) count r line := by
  cases h with
  | @call _ _ _ target slots result _ found defined _ _ _ hresult =>
    have hcalls : CallsOf s (.call dst callee arguments) callee :=
      ⟨⟨dst, arguments, rfl⟩, target, found, defined⟩
    simp only [List.mem_append, List.mem_cons, List.not_mem_nil, or_false] at hline
    rcases hline with ((rfl | hargument) | hresultLine) | rfl
    · exact .frame hcalls
    · exact form_argumentLines hargument
    · exact hresult.form hresultLine
    · exact .call hcalls

theorem form_callNative {dst : Option ValueId} {name : String} {arguments : List ValueId}
    (h : Emits env source s (.callNative dst name arguments) lines s') (hline : line ∈ lines) :
    LineForm env s s' (.callNative dst name arguments) count r line := by
  cases h with
  | callNative _ _ _ hframe hresult =>
    simp only [List.mem_append, List.mem_cons, List.not_mem_nil, or_false] at hline
    rcases hline with (rfl | hargument) | rfl | rfl
    · cases hframe with
      | variadic =>
        -- the call site is the last one so far
        have hadded := hresult.grows.callSites.length_le
        rw [List.length_append] at hadded
        exact .site (.inl rfl) hadded
      | fixed => exact .plain rfl rfl rfl rfl
    · exact form_argumentLines hargument
    · exact form_resultLine _ _
    · exact .plain rfl rfl rfl rfl

theorem form_jump {target : BlockId} (h : Emits env source s (.jump target) lines s')
    (hline : line ∈ lines) : LineForm env s s' (.jump target) count r line := by
  cases h with
  | jump hblock _ hmoved =>
    rcases List.mem_append.mp hline with hmove | hjump
    · exact hmoved.form hmove
    · obtain rfl := List.mem_singleton.mp hjump
      exact form_jumpLine hblock

theorem form_branch {condition : ValueId} {thenBlock elseBlock : BlockId}
    (h : Emits env source s (.branch condition thenBlock elseBlock) lines s')
    (hr : lines[r]? = some line) :
    LineForm env s s' (.branch condition thenBlock elseBlock) lines.length r line := by
  cases h with
  | branchPlain _ _ hthen helse =>
    have hline := List.mem_of_getElem? hr
    simp only [List.mem_cons, List.not_mem_nil, or_false] at hline
    rcases hline with rfl | rfl
    · exact .block rfl nofun rfl (List.getElem?_eq_some_iff.mp hthen).1
    · exact form_jumpLine helse
  | @branchMoving _ _ _ slot _ _ _ _ thenLines elseLines _ _ _ _ hthen helse _ _ helseMoved hthenMoved =>
    cases r with
    | zero =>
      cases hr
      -- the branch skips the lines of the second block and their jump
      have hlands : 0 + (elseLines.length + 2) < (branchLine slot (.ahead (elseLines.length + 2)) ::
          elseLines ++ [jumpLine elseBlock] ++ thenLines ++ [jumpLine thenBlock]).length := by
        simp only [List.length_append, List.length_cons, List.length_nil]
        omega
      exact .ahead rfl nofun rfl (.inl hlands)
    | succ r =>
      have hrest : (elseLines ++ [jumpLine elseBlock] ++ thenLines ++ [jumpLine thenBlock])[r]?
          = some line := hr
      have hline := List.mem_of_getElem? hrest
      simp only [List.mem_append, List.mem_singleton] at hline
      rcases hline with ((hline | rfl) | hline) | rfl
      · exact helseMoved.form hline
      · exact form_jumpLine helse
      · exact hthenMoved.form hline
      · exact form_jumpLine hthen

theorem form_ret {value : Option ValueId} (h : Emits env source s (.ret value) lines s')
    (hline : line ∈ lines) : LineForm env s s' (.ret value) count r line := by
  cases h with
  | retValue =>
    simp only [List.mem_cons, List.not_mem_nil, or_false] at hline
    rcases hline with rfl | rfl
    · exact form_moveLine _ _ _
    · exact .plain rfl rfl rfl rfl
  | retNone =>
    obtain rfl := List.mem_singleton.mp hline
    exact .plain rfl rfl rfl rfl

end Lines

/-- **What the lines of an instruction are,** as far as control and descriptors are concerned. -/
theorem Emits.form {source : BlockId} {lines : List Line} (h : Emits env source s j lines s')
    {line : Line} (hr : lines[r]? = some line) : LineForm env s s' j lines.length r line := by
  have hline := List.mem_of_getElem? hr
  have hemits := h
  cases h with
  | constNear | constBool | constCell | loadGlobal | storeGlobal | loadField | storeField =>
    obtain rfl := List.mem_singleton.mp hline
    exact form_moveLine _ _ _
  | math _ _ _ _ hopcode =>
    obtain rfl := List.mem_singleton.mp hline
    exact form_mathInstruction hopcode
  | new =>
    obtain rfl := List.mem_singleton.mp hline
    exact .site (.inr rfl) (by simp)
  | phi => cases hline
  | compare => exact form_compare hemits hr
  | call => exact form_call hemits hline
  | callNative => exact form_callNative hemits hline
  | jump => exact form_jump hemits hline
  | branchPlain | branchMoving => exact form_branch hemits hr
  | retValue | retNone => exact form_ret hemits hline

/-- **The lines of a terminator end** in a line from which control does not go on. -/
theorem Emits.ends {source : BlockId} {lines : List Line} (h : Emits env source s j lines s')
    (hterminator : j.isTerminator = true) :
    ∃ front line, lines = front ++ [line] ∧
      (line.instruction.opcode = .ret ∨ line.instruction.opcode = .jmp) := by
  cases h with
  | jump => exact ⟨_, _, rfl, .inr rfl⟩
  | branchPlain => exact ⟨[_], _, rfl, .inr rfl⟩
  | branchMoving => exact ⟨_, _, rfl, .inr rfl⟩
  | retValue => exact ⟨[_], _, rfl, .inl rfl⟩
  | retNone => exact ⟨[], _, rfl, .inl rfl⟩
  | _ => cases hterminator

end Forms

/-! ## The last instruction -/

/-- The last instruction of a function with a body ends its last block. -/
theorem Ssa.Function.numbered_eq_concat {f : Function} (h : f.shapeFault? = none) :
    ∃ front b j, f.numbered = front ++ [(b, j)] ∧ j.isTerminator = true := by
  have hblocks : f.blocks ≠ [] := by
    intro hempty
    unfold shapeFault? isDeclaration at h
    rw [hempty] at h
    cases h
  obtain ⟨blocks, last, hsplit⟩ := (List.eq_nil_or_concat' f.blocks).resolve_left hblocks
  have hlast : f.block? ⟨blocks.length⟩ = some last := by
    unfold block?
    rw [hsplit]
    exact List.getElem?_concat_length
  obtain ⟨j, hj, hterminator, -⟩ := (shape_of_shapeFault? h hlast).terminated
  obtain ⟨instrs, hinstrs⟩ := List.getLast?_eq_some_iff.mp hj
  have hnumbered : f.numbered = (blocks.zipIdx.flatMap fun b => b.1.instructions.map fun i => (b, i)) ++
      last.instructions.map fun i => ((last, blocks.length), i) := by
    unfold numbered
    rw [hsplit, List.zipIdx_append, List.flatMap_append, Nat.zero_add, List.zipIdx_singleton,
      List.flatMap_singleton]
  rw [hinstrs, List.map_append, ← List.append_assoc] at hnumbered
  exact ⟨_, (last, blocks.length), j, hnumbered, hterminator⟩

namespace Lowering

variable {f : Function} {c c' : Context} {fragment : Fragment} (L : Lowering f c fragment c')

/-- **The last line of a function** is one from which control does not go on. -/
theorem lines_end : ∃ front line, L.lines = front ++ [line] ∧
    (line.instruction.opcode = .ret ∨ line.instruction.opcode = .jmp) := by
  obtain ⟨front, b, j, hnumbered, hterminator⟩ := Ssa.Function.numbered_eq_concat L.shape
  obtain ⟨T⟩ := L.trace
  have hq : f.numbered[front.length]? = some (b, j) := by
    rw [hnumbered]
    exact List.getElem?_concat_length
  have hlength : L.pieces.flatten.length = front.length + 1 := by
    rw [← L.length_numbered, hnumbered, List.length_append]
    rfl
  have hpieces : L.pieces.flatten ≠ [] := by
    intro hempty
    rw [hempty] at hlength
    cases hlength
  obtain ⟨pieces, last, hpieces⟩ := (List.eq_nil_or_concat' L.pieces.flatten).resolve_left hpieces
  have hlast : L.pieces.flatten[front.length]? = some last := by
    have hfront : front.length = pieces.length := by
      rw [hpieces, List.length_append] at hlength
      exact (Nat.succ.inj hlength).symm
    rw [hpieces, hfront]
    exact List.getElem?_concat_length
  obtain ⟨lines, line, rfl, hopcode⟩ := (T.emits _ b j last hq hlast).ends hterminator
  refine ⟨pieces.flatten ++ lines, line, ?_, hopcode⟩
  unfold Lowering.lines
  rw [hpieces, List.flatten_append, List.flatten_singleton, List.append_assoc]

theorem lines_pos : 0 < L.lines.length := by
  obtain ⟨front, line, hlines, -⟩ := L.lines_end
  rw [hlines, List.length_append]
  exact Nat.succ_pos _

/-- There is a line after those of an instruction that does not end its block. -/
theorem pieceStart_succ_lt {q : Nat} {b : Ssa.Block × Nat} {j : Instr}
    (hq : f.numbered[q]? = some (b, j)) (hgoes : j.isTerminator = false) :
    L.pieceStart (q + 1) < L.lines.length := by
  obtain ⟨front, b', j', hnumbered, hterminator⟩ := Ssa.Function.numbered_eq_concat L.shape
  obtain ⟨T⟩ := L.trace
  have hlast : f.numbered[front.length]? = some (b', j') := by
    rw [hnumbered]
    exact List.getElem?_concat_length
  have hbefore : q + 1 ≤ front.length := by
    have hlt := (List.getElem?_eq_some_iff.mp hq).1
    rw [hnumbered, List.length_append, List.length_singleton] at hlt
    have hne : q ≠ front.length := by
      rintro rfl
      rw [hlast] at hq
      cases hq
      rw [hterminator] at hgoes
      cases hgoes
    omega
  have hlt : front.length < L.pieces.flatten.length := by
    rw [← L.length_numbered]
    exact (List.getElem?_eq_some_iff.mp hlast).1
  obtain ⟨lines, line, hends, -⟩ :=
    (T.emits _ b' j' _ hlast (List.getElem?_eq_getElem hlt)).ends hterminator
  -- the last instruction has a line, and it lies at or after where this one ends
  have hline : L.lines[L.pieceStart front.length + lines.length]? = some line := by
    refine L.line_of_piece (List.getElem?_eq_getElem hlt) ?_
    rw [hends]
    exact List.getElem?_concat_length
  have hstart : L.pieceStart (q + 1) ≤ L.pieceStart front.length := by
    unfold pieceStart
    obtain ⟨rest, hrest⟩ := List.take_prefix_take_left (l := L.pieces.flatten) hbefore
    rw [← hrest, List.flatten_append, List.length_append]
    exact Nat.le_add_right _ _
  have hend := (List.getElem?_eq_some_iff.mp hline).1
  omega

/-- A block starts where there is code. -/
theorem blockAddress_lt {b : Nat} (hb : b < f.blocks.length) : L.blockAddress b < L.lines.length := by
  have hblock : f.blocks[b]? = some f.blocks[b] := List.getElem?_eq_getElem hb
  obtain ⟨last, hlast, hterminator, -⟩ :=
    (Ssa.Function.shape_of_shapeFault? L.shape (b := ⟨b⟩) hblock).terminated
  obtain ⟨instrs, hinstrs⟩ := List.getLast?_eq_some_iff.mp hlast
  have hk : f.blocks[b].instructions[instrs.length]? = some last := by
    rw [hinstrs]
    exact List.getElem?_concat_length
  obtain ⟨lines, t, t', hemits, -, -, hplaced, -⟩ := L.instr hblock hk
  -- the block ends in a terminator, which has at least one line
  obtain ⟨front, line, rfl, -⟩ := hemits.ends hterminator
  obtain ⟨-, ⟨i, hi, -⟩, -⟩ := placed_append.mp hplaced
  have hlt := (List.getElem?_eq_some_iff.mp hi).1
  rw [L.length_code] at hlt
  have hle : L.blockAddress b ≤ L.address ⟨b⟩ instrs.length := Nat.le_add_right _ _
  omega

end Lowering

/-! ## The instructions of a function in its place -/

/-- What the instruction `i` leads to and names, if it is one of the function whose fragment is `fragment`
and lies at `place`: addresses in the function, call sites of the function, and callees. -/
structure Fragment.Aims (fragment : Fragment) (place : Place) (i : Instruction) : Prop where
  direct : i.mid.isIndirect = false
  branch : i.opcode.isBranch = true → i.opcode ≠ .call →
    ∃ n : Nat, n < fragment.code.length ∧ i.dst = .imm (n + place.start)
  call : i.opcode = .call → ∃ name placement, place.callee? name = some placement ∧
    i.dst = .imm placement.address
  descriptor : ∀ id, i.typeId? = some id →
    (∃ n : Nat, n < fragment.callSites.length ∧ id = n + place.callSiteBase) ∨
      ∃ name placement, place.callee? name = some placement ∧ id = placement.frameId

/-- A branch names no descriptor. -/
theorem Opcode.types_of_isBranch {op : Opcode} (h : op.isBranch = true) :
    op.typeInSource = false ∧ op.typeInMiddle = false := by
  constructor
  · rw [Bool.eq_false_iff, ne_eq, op.typeInSource_iff]
    rintro (rfl | rfl) <;> cases h
  · rw [Bool.eq_false_iff, ne_eq, op.typeInMiddle_iff]
    rintro rfl
    cases h

theorem Instruction.typeId?_of_isBranch {i : Instruction} (h : i.opcode.isBranch = true) :
    i.typeId? = none := by
  obtain ⟨hsource, hmiddle⟩ := Opcode.types_of_isBranch h
  unfold typeId?
  rw [hsource, hmiddle]
  rfl

/-- A branch to an address of the function. -/
theorem Fragment.aims_branch {fragment : Fragment} (place : Place) {i : Instruction}
    (hbranch : i.opcode.isBranch = true) (hcall : i.opcode ≠ .call) (hdirect : i.mid.isIndirect = false)
    {n : Nat} (hn : n < fragment.code.length) :
    fragment.Aims place ({ i with dst := .imm n }.movedTo place.start place.callSiteBase) := by
  have hmid : ¬ i.opcode = .newa := by
    rw [← i.opcode.typeInMiddle_iff, (Opcode.types_of_isBranch hbranch).2]
    exact Bool.false_ne_true
  refine ⟨?_, fun _ _ => ⟨n, hn, if_pos hbranch⟩, fun h => absurd h hcall, fun id hid => ?_⟩
  · show Operand.isIndirect (if i.opcode = .newa then _ else i.mid) = false
    rw [if_neg hmid]
    exact hdirect
  · have hbranch' : (Instruction.movedTo place.start place.callSiteBase
        { i with dst := .imm n }).opcode.isBranch = true := hbranch
    rw [Instruction.typeId?_of_isBranch hbranch'] at hid
    cases hid

namespace Lowering

variable {f : Function} {c c' : Context} {fragment : Fragment} (L : Lowering f c fragment c')
  {place : Place} {linked : LinkedFragment}

/-- A line that goes ahead goes to a line. -/
theorem ahead_lt {q r lines count : Nat} {b : Ssa.Block × Nat} {j : Instr} {piece : List Line}
    (hq : f.numbered[q]? = some (b, j)) (hpiece : L.pieces.flatten[q]? = some piece)
    (hcount : piece.length = count)
    (hlands : r + lines < count ∨ (r + lines = count ∧ j.isTerminator = false)) :
    L.pieceStart q + r + lines < L.lines.length := by
  rcases hlands with hlt | ⟨heq, hgoes⟩
  · have hline := L.line_of_piece hpiece (List.getElem?_eq_getElem (hcount ▸ hlt))
    have hend := (List.getElem?_eq_some_iff.mp hline).1
    omega
  · -- the line ahead is the first one of the next instruction
    have hnext := L.pieceStart_succ_lt hq hgoes
    have hstart : L.pieceStart (q + 1) = L.pieceStart q + count := by
      unfold pieceStart
      rw [List.take_add_one, hpiece, List.flatten_append, List.length_append]
      simp [hcount]
    omega

include L in
/-- **What the instructions of a function lead to.** -/
theorem aims (h : fragment.LinkedAs place linked) {n : Nat} {i : Instruction}
    (hi : linked.code[n]? = some i) : fragment.Aims place i := by
  have hlt := (List.getElem?_eq_some_iff.mp hi).1
  rw [h.length, L.length_code] at hlt
  have hline := List.getElem?_eq_getElem hlt
  rw [L.linked_at h hline, Option.some.injEq] at hi
  subst hi
  obtain ⟨T⟩ := L.trace
  obtain ⟨q, r, b, j, lines, hq, hpiece, hr, hn⟩ := L.piece_of_line hline
  have hplaced {kind : PatchKind} {name : String} (hfixup : L.lines[n].fixup = .callee kind name) :=
    L.callee_placed h hline hfixup
  have hform := (T.emits q b j lines hq hpiece).form hr
  generalize L.lines[n] = line at hform hplaced
  have hlater := (T.grows (show q + 1 ≤ f.numbered.length from
    (List.getElem?_eq_some_iff.mp hq).1) (Nat.le_refl _)).callSites.length_le
  rw [T.last, ← L.fragment_callSites] at hlater
  cases hform with
  | @plain i hbranch hsource hmiddle hdirect =>
    have hsame : Line.linked L.starts place n ⟨i, .settled⟩ = i :=
      Instruction.movedTo_eq hbranch hsource hmiddle _ _
    rw [hsame]
    refine ⟨hdirect, fun hb => ?_, fun hcall => ?_, fun id hid => ?_⟩
    · rw [hbranch] at hb
      cases hb
    · rw [hcall] at hbranch
      cases hbranch
    · simp [Instruction.typeId?, hsource, hmiddle] at hid
  | @site opcode id dst hmaker hexists =>
    rcases hmaker with rfl | rfl
    · refine ⟨rfl, nofun, nofun, fun id' hid => .inl ⟨id, by omega, ?_⟩⟩
      cases hid
      rfl
    · refine ⟨rfl, nofun, nofun, fun id' hid => .inl ⟨id, by omega, ?_⟩⟩
      cases hid
      rfl
  | @ahead i ahead hbranch hcall hdirect hlands =>
    refine Fragment.aims_branch place hbranch hcall hdirect ?_
    rw [L.length_code, hn]
    exact L.ahead_lt hq hpiece rfl hlands
  | @block i target hbranch hcall hdirect hexists =>
    refine Fragment.aims_branch place hbranch hcall hdirect ?_
    rw [List.getD_eq_getElem?_getD, L.getElem?_starts hexists, L.length_code]
    exact L.blockAddress_lt hexists
  | @frame name base hcalls =>
    obtain ⟨placement, hplacement⟩ := hplaced rfl
    refine ⟨rfl, nofun, nofun, fun id hid => .inr ⟨name, placement, hplacement, ?_⟩⟩
    have hid' : some ((place.callee? name).getD default).frameId = some id := hid
    rw [hplacement] at hid'
    exact (Option.some.inj hid').symm
  | @call name base hcalls =>
    obtain ⟨placement, hplacement⟩ := hplaced rfl
    refine ⟨rfl, fun _ hne => absurd rfl hne, fun _ => ⟨name, placement, hplacement, ?_⟩, nofun⟩
    show Operand.imm ((place.callee? name).getD default).address = _
    rw [hplacement]
    rfl

end Lowering
end DisBackend
