import DisBackend.Proofs.Collector.Makers
import DisBackend.Proofs.Lowering.Moves

/-!
# `Proofs.Collector.Instructions` — instructions other than calls agree with their descriptors

Every value has a word that is marked by its type, and operations are selected by type, so the lines of
most instructions agree with the descriptors by typing alone. What lies behind pointers is the exception:
a field is marked by what made its object.

## Contents

* `Scope.Fits`, `sound_of_fits`, `sound_move`, `sound_branch`, `sound_reaching` — forms of instructions;
* `Piece` — an instruction, its lines, and the states before and after it;
* `Move.Fits`, `Site.moved_sound` — moves, and the temporaries between them;
* `Piece.const_sound`, …, `Piece.ret_sound` — the lines of each kind of instruction;
* `Piece.sound_of_not_call` — the lines of an instruction other than a call.
-/

namespace DisBackend

open Ssa (BlockId Function Instr Ty ValueId)

/-! ## Forms of instructions -/

section Forms

variable {S : Scope} {n : Nat} {pointer : Bool}

/-- The word of the operand is there, and is marked as `pointer` says. -/
def Scope.Fits (S : Scope) (n : Nat) (pointer : Bool) (operand : Operand) : Prop :=
  S.Reaches n operand ∧ S.Marks n pointer operand

theorem Scope.Word.fits {offset : Int} (h : S.Word offset pointer) : S.Fits n pointer (.fp offset) := h

theorem fits_imm (value : Int) : S.Fits n false (.imm value) := ⟨trivial, rfl⟩

theorem Scope.Word.ne_returnSlot {offset : Int} (h : S.Word offset pointer) : offset ≠ returnSlot := by
  have hle : headerBytes ≤ offset := h.1.1
  have hlt : returnSlot < headerBytes := by decide
  omega

theorem fits_return {ty : Ty} (h : S.result = some ty) (hret : S.code[n + 1]? = some (.plain .ret)) :
    S.Fits n ty.isPointer (.fpIndirect returnSlot 0) := by
  refine ⟨.inl ⟨rfl, rfl, hret⟩, ?_⟩
  rw [Scope.Marks, if_pos rfl]
  exact ⟨ty, h, rfl⟩

theorem fits_field {base offset : Int} (hbase : S.Word base true)
    (h : S.MarksField n base offset pointer) : S.Fits n pointer (.fpIndirect base offset) := by
  refine ⟨.inr hbase.1, ?_⟩
  rw [Scope.Marks, if_neg hbase.ne_returnSlot, if_pos hbase.2]
  exact h

theorem fits_argument {base offset : Int} (hbase : S.Word base false)
    (h : S.MarksArgument n base offset pointer) : S.Fits n pointer (.fpIndirect base offset) := by
  refine ⟨.inr hbase.1, ?_⟩
  rw [Scope.Marks, if_neg hbase.ne_returnSlot, if_neg (by rw [hbase.2]; exact Bool.false_ne_true)]
  exact h

theorem Instruction.forall_operands {p : Operand → Prop} {i : Instruction} (hsrc : p i.src)
    (hmid : p i.mid) (hdst : p i.dst) : ∀ o ∈ i.operands, p o := by
  simp only [operands, List.forall_mem_cons]
  exact ⟨hsrc, hmid, hdst, by simp⟩

theorem Instruction.mem_operands_of_touched {i : Instruction} {o : Operand} (h : o ∈ i.touched) :
    o ∈ i.operands := by
  unfold touched at h
  split at h
  · exact List.mem_of_mem_take (i := 2) h
  · exact h

theorem mem_operands_mathInstruction {op : Ssa.MathOp} {opcode : Opcode} {lhs rhs dst : Slot}
    {o : Operand} (h : o ∈ (mathInstruction op opcode lhs rhs dst).operands) :
    o = lhs.operand ∨ o = rhs.operand ∨ o = dst.operand := by
  unfold mathInstruction at h
  split at h <;>
    simp only [Instruction.ternary, Instruction.operands, List.mem_cons, List.not_mem_nil, or_false] at h
  · exact h
  · exact or_left_comm.mp h

/-- What copies, computes or compares makes no object and passes on no address. -/
theorem sound_of_marks {i : Instruction} (hpointers : i.opcode.pointers? = some pointer)
    (hreaches : ∀ o ∈ i.operands, S.Reaches n o) (hmarks : ∀ o ∈ i.touched, S.Marks n pointer o) :
    S.Sound n i where
  reaches := hreaches
  marks p hp o ho := by
    rw [hpointers, Option.some.injEq] at hp
    exact hp ▸ hmarks o ho
  object hnew := by rw [hnew] at hpointers; cases hpointers
  result _ _ hlea := by rw [hlea] at hpointers; cases hpointers

theorem sound_of_fits {i : Instruction} (hpointers : i.opcode.pointers? = some pointer)
    (h : ∀ o ∈ i.operands, S.Fits n pointer o) : S.Sound n i :=
  sound_of_marks hpointers (fun o ho => (h o ho).1)
    fun o ho => (h o (Instruction.mem_operands_of_touched ho)).2

theorem sound_move {ty : Ty} {src dst : Operand} (hsrc : S.Fits n ty.isPointer src)
    (hdst : S.Fits n ty.isPointer dst) : S.Sound n (moveLine ty src dst).instruction :=
  sound_of_fits (pointers?_moveOpcode ty) (Instruction.forall_operands hsrc ⟨trivial, trivial⟩ hdst)

theorem sound_branch {opcode : Opcode} {src mid : Operand} {target : Int}
    (hpointers : opcode.pointers? = some pointer) (hbranch : opcode.isBranch = true)
    (hsrc : S.Fits n pointer src) (hmid : S.Fits n pointer mid) :
    S.Sound n (.ternary opcode src mid (.imm target)) := by
  refine sound_of_marks hpointers (Instruction.forall_operands hsrc.1 hmid.1 trivial) ?_
  have htouched : (Instruction.ternary opcode src mid (.imm target)).touched = [src, mid] := if_pos hbranch
  rw [htouched]
  simp only [List.forall_mem_cons]
  exact ⟨hsrc.2, hmid.2, by simp⟩

/-- For all other operations it is enough that the words are there. -/
theorem sound_reaching {i : Instruction} (hpointers : i.opcode.pointers? = none)
    (hnew : i.opcode ≠ .new) (hlea : i.opcode ≠ .lea) (hreaches : ∀ o ∈ i.operands, S.Reaches n o) :
    S.Sound n i where
  reaches := hreaches
  marks p hp := by rw [hpointers] at hp; cases hp
  object h := absurd h hnew
  result _ _ h := absurd (congrArg Instruction.opcode h) hlea

theorem sound_jumpLine (target : BlockId) : S.Sound n (jumpLine target).instruction :=
  sound_reaching rfl nofun nofun (Instruction.forall_operands trivial trivial trivial)

theorem sound_branchLine {condition : Slot} {fixup : Fixup} (hbool : condition.ty = .bool)
    (h : S.Fits n condition.ty.isPointer condition.operand) :
    S.Sound n (branchLine condition fixup).instruction := by
  rw [hbool] at h
  exact sound_branch rfl rfl h (fits_imm 0)

theorem sound_new {id offset : Int} (h : S.Fits n true (.fp offset)) :
    S.Sound n (.binary .new (.imm id) (.fp offset)) where
  reaches := Instruction.forall_operands trivial trivial h.1
  marks := nofun
  object _ := h.2
  result := nofun

theorem sound_ret : S.Sound n (.plain .ret) :=
  sound_reaching rfl nofun nofun (Instruction.forall_operands trivial trivial trivial)

end Forms

/-! ## Pieces -/

/-- The lines `lines` were written for instruction number `q` of the function, which is `j`, in the state
`s`, and `s'` came after. -/
structure Piece {f : Function} {c c' : Context} {fragment : Fragment} {L : Lowering f c fragment c'}
    (T : L.Trace) (q : Nat) (j : Instr) (lines : List Line) (s s' : State) : Prop where
  instr : ∃ b, f.numbered[q]? = some (b, j)
  piece : L.pieces.flatten[q]? = some lines
  before : T.state q = s
  after : T.state (q + 1) = s'

namespace Piece

variable {f : Function} {c c' : Context} {fragment : Fragment} {L : Lowering f c fragment c'}
  {T : L.Trace} {q r : Nat} {j : Instr} {lines : List Line} {s s' : State} (P : Piece T q j lines s s')
  {S : Scope} (site : Site L S)

include P

theorem mem : j ∈ f.instructions := by
  obtain ⟨b, hq⟩ := P.instr
  exact Ssa.Function.mem_of_numbered hq

theorem lt : q < f.numbered.length := by
  obtain ⟨b, hq⟩ := P.instr
  exact (List.getElem?_eq_some_iff.mp hq).1

theorem grows_first : L.first.Grows s := by
  have h := T.grows (Nat.zero_le q) (Nat.le_of_lt P.lt)
  rw [T.first, P.before] at h
  exact h

theorem grows_last : s'.Grows L.final := by
  have h := T.grows P.lt (Nat.le_refl _)
  rw [T.last, P.after] at h
  exact h

theorem line {line : Line} (hr : lines[r]? = some line) : L.lines[L.pieceStart q + r]? = some line :=
  L.line_of_piece P.piece hr

end Piece

/-! ## Moves -/

section Moves

variable {f : Function} {c c' : Context} {fragment : Fragment} {L : Lowering f c fragment c'}
  {S : Scope} {n : Nat} (site : Site L S)

/-- The move is between words that are marked by its type. -/
def Move.Fits (S : Scope) (m : Move) : Prop :=
  S.Word m.src m.ty.isPointer ∧ S.Word m.dst m.ty.isPointer

theorem directLines_sound {moves : List Move} (hmoves : ∀ m ∈ moves, m.Fits S) {line : Line}
    (hline : line ∈ directLines moves) : S.Sound n line.instruction := by
  obtain ⟨m, hm, rfl⟩ := List.mem_map.mp hline
  exact sound_move (hmoves m hm).1.fits (hmoves m hm).2.fits

include site

theorem Site.fits_slot {v : ValueId} {slot : Slot} (h : L.slots.lookup v = some slot) :
    S.Fits n slot.ty.isPointer slot.operand :=
  (site.slot h).fits

theorem Site.fits_global {name : String} {global : GlobalSlot} {s : State} (hgrows : s.Grows L.final)
    (hfound : s.context.global? name = some global) :
    S.Fits n global.ty.isPointer (.mp global.offset) := by
  obtain ⟨k, hk, hoffset⟩ := Context.cell_of_global? hfound
  rw [hoffset]
  exact site.cell hgrows hk

/-- The moves of an edge are between values of one type. -/
theorem Site.fits_edge {source : BlockId} {instrs : List Instr} {moves : List Move}
    (h : EdgeMoves L.env source instrs moves) : ∀ m ∈ moves, m.Fits S := by
  intro m hm
  obtain ⟨dst, ty, incoming, edge, d, s, -, hslots, -, rfl⟩ := h.phi_of_move hm
  refine ⟨?_, site.slot hslots.dst_slot⟩
  rw [hslots.same_type]
  exact site.slot hslots.src_slot

/-- A temporary is marked by the type of what it holds. -/
theorem Site.temporary {s : State} {moves : List Move}
    (hgrows : State.Grows { s with frame := ⟨s.frame.words ++ moves.map (·.ty.isPointer)⟩ } L.final)
    {m : Move} {t : Int} (h : (m, t) ∈ moves.zip (s.frame.nextOffsets moves.length)) :
    S.Word t m.ty.isPointer := by
  obtain ⟨k, hk⟩ := List.mem_iff_getElem?.mp h
  obtain ⟨hm, ht⟩ := List.getElem?_zip_eq_some.mp hk
  have hlt := (List.getElem?_eq_some_iff.mp hm).1
  unfold Frame.nextOffsets at ht
  rw [List.getElem?_map, List.getElem?_range hlt] at ht
  cases ht
  refine site.word hgrows ?_
  show (s.frame.words ++ moves.map (·.ty.isPointer))[s.frame.words.length + k]? = _
  rw [List.getElem?_append_right (by omega), Nat.add_sub_cancel_left, List.getElem?_map, hm]
  rfl

theorem Site.moved_sound {moves : List Move} {s s' : State} {lines : List Line}
    (h : Moved moves s lines s') (hgrows : s'.Grows L.final) (hmoves : ∀ m ∈ moves, m.Fits S)
    {line : Line} (hline : line ∈ lines) : S.Sound n line.instruction := by
  cases h with
  | direct => exact directLines_sound hmoves hline
  | through =>
    rcases List.mem_append.mp hline with hsave | hrestore
    · refine directLines_sound (fun m hm => ?_) hsave
      obtain ⟨⟨m₀, t⟩, hzip, rfl⟩ := List.mem_map.mp hm
      have htemporary := site.temporary hgrows hzip
      exact ⟨(hmoves m₀ (List.of_mem_zip hzip).1).1, htemporary⟩
    · refine directLines_sound (fun m hm => ?_) hrestore
      obtain ⟨⟨m₀, t⟩, hzip, rfl⟩ := List.mem_map.mp hm
      have htemporary := site.temporary hgrows hzip
      exact ⟨htemporary, (hmoves m₀ (List.of_mem_zip hzip).1).2⟩

end Moves

/-! ## Instructions other than calls -/

theorem isPointer_of_cell? {value : Ssa.Constant} {cell : Cell} (h : value.cell? = some cell) :
    cell.isPointer = value.ty.isPointer := by
  cases value with
  | int n =>
    have hcell : (if Encodable n.toInt then none else some (Cell.long n)) = some cell := h
    split at hcell
    · cases hcell
    · cases hcell; rfl
  | real r => cases h; rfl
  | bool b => cases h
  | string text => cases h; rfl

namespace Piece

variable {f : Function} {c c' : Context} {fragment : Fragment} {L : Lowering f c fragment c'}
  {T : L.Trace} {q r n : Nat} {j : Instr} {lines : List Line} {s s' : State} {S : Scope}

section

variable (P : Piece T q j lines s s') (site : Site L S)

include P site

theorem fits_result {dst : ValueId} {ty : Ty} {slot : Slot} (htype : resultType c j = .ok (some (dst, ty)))
    (hslot : L.slots.lookup dst = some slot) : S.Fits n ty.isPointer slot.operand := by
  rw [← L.slot_result P.mem htype hslot]
  exact site.fits_slot hslot

theorem fits_field {object : ValueId} {field : Nat} {ty : Ty} {base : Slot} (hr : r < lines.length)
    (hother : ∀ dst fields, j ≠ .new dst fields) (haccess : FieldAccess L.env s object field ty base) :
    S.Fits (L.pieceStart q + r) ty.isPointer (.fpIndirect base.offset (wordOffset 0 field)) := by
  obtain ⟨b, hq⟩ := P.instr
  have hword := site.slot haccess.slot
  rw [haccess.isObject] at hword
  exact DisBackend.fits_field hword (site.marksField (T := T) hq P.piece hother hr (P.before ▸ haccess))

end

variable {source : BlockId} {line : Line}

theorem const_sound {dst : ValueId} {value : Ssa.Constant}
    (P : Piece T q (.const dst value) lines s s') (site : Site L S)
    (h : Emits L.env source s (.const dst value) lines s') (hline : line ∈ lines) :
    S.Sound n line.instruction := by
  cases h with
  | constNear hnear hslot =>
    obtain rfl := List.mem_singleton.mp hline
    exact sound_move (fits_imm _) (P.fits_result site rfl hslot)
  | constBool hslot =>
    obtain rfl := List.mem_singleton.mp hline
    exact sound_move (fits_imm _) (P.fits_result site rfl hslot)
  | constCell hcell hslot hintern =>
    obtain rfl := List.mem_singleton.mp hline
    obtain ⟨k, hk, rfl⟩ := Context.intern_ok hintern
    refine sound_move ?_ (P.fits_result site rfl hslot)
    rw [← isPointer_of_cell? hcell]
    exact site.cell P.grows_last hk

theorem math_sound {dst lhs rhs : ValueId} {op : Ssa.MathOp}
    (P : Piece T q (.math dst op lhs rhs) lines s s') (site : Site L S)
    (h : Emits L.env source s (.math dst op lhs rhs) lines s') (hline : line ∈ lines) :
    S.Sound n line.instruction := by
  cases h with
  | math hlhs hrhs hdst hty hopcode =>
    obtain rfl := List.mem_singleton.mp hline
    refine sound_of_fits (pointers?_mathInstruction hopcode) ?_
    intro o ho
    rcases mem_operands_mathInstruction ho with rfl | rfl | rfl
    · exact site.fits_slot hlhs
    · rw [hty]
      exact site.fits_slot hrhs
    · rw [← L.slot_math P.mem hdst hlhs]
      exact site.fits_slot hdst

theorem compare_sound {dst lhs rhs : ValueId} {op : Ssa.Comparison}
    (P : Piece T q (.compare dst op lhs rhs) lines s s') (site : Site L S)
    (h : Emits L.env source s (.compare dst op lhs rhs) lines s') (hline : line ∈ lines) :
    S.Sound n line.instruction := by
  cases h with
  | compare hlhs hrhs hdst hty hopcode =>
    simp only [List.mem_cons, List.not_mem_nil, or_false] at hline
    rcases hline with rfl | rfl | rfl
    · exact sound_move (fits_imm 1) (P.fits_result site rfl hdst)
    · obtain ⟨hpointers, hbranch⟩ := pointers?_compareOpcode hopcode
      refine sound_branch hpointers hbranch (site.fits_slot hlhs) ?_
      rw [hty]
      exact site.fits_slot hrhs
    · exact sound_move (fits_imm 0) (P.fits_result site rfl hdst)

theorem loadGlobal_sound {dst : ValueId} {name : String}
    (P : Piece T q (.loadGlobal dst name) lines s s') (site : Site L S)
    (h : Emits L.env source s (.loadGlobal dst name) lines s') (hline : line ∈ lines) :
    S.Sound n line.instruction := by
  cases h with
  | loadGlobal hfound hslot =>
    obtain rfl := List.mem_singleton.mp hline
    refine sound_move (site.fits_global P.grows_last hfound) ?_
    rw [← L.slot_global P.mem hslot P.grows_first hfound]
    exact site.fits_slot hslot

theorem storeGlobal_sound {value : ValueId} {name : String}
    (P : Piece T q (.storeGlobal name value) lines s s') (site : Site L S)
    (h : Emits L.env source s (.storeGlobal name value) lines s') (hline : line ∈ lines) :
    S.Sound n line.instruction := by
  cases h with
  | storeGlobal hfound hslot hty =>
    obtain rfl := List.mem_singleton.mp hline
    refine sound_move ?_ (site.fits_global P.grows_last hfound)
    rw [hty]
    exact site.fits_slot hslot

theorem new_sound {dst : ValueId} {fields : List Ty}
    (P : Piece T q (.new dst fields) lines s s') (site : Site L S)
    (h : Emits L.env source s (.new dst fields) lines s') (hline : line ∈ lines) :
    S.Sound n line.instruction := by
  cases h with
  | new _ _ hslot =>
    obtain rfl := List.mem_singleton.mp hline
    exact sound_new (P.fits_result site rfl hslot)

theorem loadField_sound {dst object : ValueId} {ty : Ty} {field : Nat}
    (P : Piece T q (.loadField dst ty object field) lines s s') (site : Site L S)
    (h : Emits L.env source s (.loadField dst ty object field) lines s') (hr : lines[r]? = some line) :
    S.Sound (L.pieceStart q + r) line.instruction := by
  have hlt := (List.getElem?_eq_some_iff.mp hr).1
  cases h with
  | loadField haccess hslot =>
    obtain rfl := List.mem_singleton.mp (List.mem_of_getElem? hr)
    exact sound_move (P.fits_field site hlt nofun haccess) (P.fits_result site rfl hslot)

theorem storeField_sound {object value : ValueId} {field : Nat}
    (P : Piece T q (.storeField object field value) lines s s') (site : Site L S)
    (h : Emits L.env source s (.storeField object field value) lines s') (hr : lines[r]? = some line) :
    S.Sound (L.pieceStart q + r) line.instruction := by
  have hlt := (List.getElem?_eq_some_iff.mp hr).1
  cases h with
  | storeField hslot haccess =>
    obtain rfl := List.mem_singleton.mp (List.mem_of_getElem? hr)
    exact sound_move (site.fits_slot hslot) (P.fits_field site hlt nofun haccess)

theorem jump_sound {target : BlockId} (P : Piece T q (.jump target) lines s s') (site : Site L S)
    (h : Emits L.env source s (.jump target) lines s') (hline : line ∈ lines) :
    S.Sound n line.instruction := by
  cases h with
  | jump _ hedge hmoved =>
    rcases List.mem_append.mp hline with hmove | hjump
    · exact site.moved_sound hmoved P.grows_last (site.fits_edge hedge) hmove
    · obtain rfl := List.mem_singleton.mp hjump
      exact sound_jumpLine _

theorem branch_sound {condition : ValueId} {thenBlock elseBlock : BlockId}
    (P : Piece T q (.branch condition thenBlock elseBlock) lines s s') (site : Site L S)
    (h : Emits L.env source s (.branch condition thenBlock elseBlock) lines s') (hline : line ∈ lines) :
    S.Sound n line.instruction := by
  have hlast := P.grows_last
  cases h with
  | branchPlain hslot hbool =>
    simp only [List.mem_cons, List.not_mem_nil, or_false] at hline
    rcases hline with rfl | rfl
    · exact sound_branchLine hbool (site.fits_slot hslot)
    · exact sound_jumpLine _
  | branchMoving hslot hbool _ _ hthenEdge helseEdge helse hthen =>
    simp only [List.mem_append, List.mem_cons, List.not_mem_nil, or_false] at hline
    rcases hline with (((rfl | hline) | rfl) | hline) | rfl
    · exact sound_branchLine hbool (site.fits_slot hslot)
    · exact site.moved_sound helse (hthen.grows.trans hlast) (site.fits_edge helseEdge) hline
    · exact sound_jumpLine _
    · exact site.moved_sound hthen hlast (site.fits_edge hthenEdge) hline
    · exact sound_jumpLine _

theorem ret_sound {value : Option ValueId} (P : Piece T q (.ret value) lines s s') (site : Site L S)
    (h : Emits L.env source s (.ret value) lines s') (hr : lines[r]? = some line) :
    S.Sound (L.pieceStart q + r) line.instruction := by
  cases h with
  | retValue hresult hslot hty =>
    cases r with
    | zero =>
      cases hr
      have hret : L.lines[L.pieceStart q + 1]? = some ⟨.plain .ret, .settled⟩ := P.line rfl
      refine sound_move ?_ (fits_return (site.result.trans hresult) (site.code_of_settled hret rfl))
      rw [hty]
      exact site.fits_slot hslot
    | succ r =>
      obtain rfl := List.mem_singleton.mp (List.mem_of_getElem? (List.getElem?_cons_succ ▸ hr))
      exact sound_ret
  | retNone =>
    obtain rfl := List.mem_singleton.mp (List.mem_of_getElem? hr)
    exact sound_ret

/-- **The lines of an instruction other than a call are sound.** -/
theorem sound_of_not_call (P : Piece T q j lines s s') (site : Site L S) (h : Emits L.env source s j lines s')
    (hcall : ∀ dst callee arguments, j ≠ .call dst callee arguments)
    (hnative : ∀ dst name arguments, j ≠ .callNative dst name arguments)
    (hr : lines[r]? = some line) : S.Sound (L.pieceStart q + r) line.instruction := by
  have hline := List.mem_of_getElem? hr
  cases j with
  | const dst value => exact P.const_sound site h hline
  | math dst op lhs rhs => exact P.math_sound site h hline
  | compare dst op lhs rhs => exact P.compare_sound site h hline
  | phi dst ty incoming =>
    cases h
    cases hline
  | loadGlobal dst name => exact P.loadGlobal_sound site h hline
  | storeGlobal name value => exact P.storeGlobal_sound site h hline
  | new dst fields => exact P.new_sound site h hline
  | loadField dst ty object field => exact P.loadField_sound site h hr
  | storeField object field value => exact P.storeField_sound site h hr
  | call dst callee arguments => exact absurd rfl (hcall _ _ _)
  | callNative dst name arguments => exact absurd rfl (hnative _ _ _)
  | jump target => exact P.jump_sound site h hline
  | branch condition thenBlock elseBlock => exact P.branch_sound site h hline
  | ret value => exact P.ret_sound site h hr

end Piece

end DisBackend
