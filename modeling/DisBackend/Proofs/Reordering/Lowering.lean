import DisBackend.Proofs.Reordering.Renaming

/-!
# `Proofs.Reordering.Lowering` — lowering with other places

Lowering a function reads little of the shared context: the functions that calls name, the globals, and the
places of constants and imports. In contexts that differ by a renaming it therefore takes the same steps,
stops for the same reason, and writes code that differs by the renaming.

## Contents

* `State.Renamed`, `Tracks` — what two runs of lowering have in common;
* `tracks_slotOf`, `tracks_moveAll`, … — the basic actions;
* `tracks_lowerConst`, `tracks_lowerCall`, …, `tracks_lowerInstr` — the instructions;
* `valueTypes_eq`, `parallel_lowerFunction`, `parallel_lowerAll` — functions.
-/

namespace DisBackend

open Ssa (BlockId Comparison Constant Function Instr MathOp Ty ValueId)

/-- `s'` is `s` with other places for strings and for imports. -/
structure State.Renamed (ρ : Renaming) (s s' : State) : Prop where
  context : Context.Renamed ρ s.context s'.context
  frame : s'.frame = s.frame
  callSites : s'.callSites = s.callSites
  objects : s'.objects = s.objects

/-- Started in states that differ by a renaming, both runs stop for the same reason, or end in such states
with results that are related by `Q`. -/
abbrev Tracks {α : Type} (ρ : Renaming) (Q : α → α → Prop) (m m' : LowerM α) : Prop :=
  Parallel Eq (State.Renamed ρ) Q m m'

/-- Lines that differ by a renaming. -/
abbrev LinesRenamed (ρ : Renaming) (lines lines' : List Line) : Prop := lines' = lines.map (Line.rename ρ)

/-! ## Basic actions -/

section Actions

variable {ρ : Renaming} {α : Type} {env : Env}

theorem tracks_refuse {Q : α → α → Prop} (e : LowerError) : Tracks ρ Q (refuse e) (refuse e) := .throw rfl

theorem tracks_orFault (x : Except Fault α) : Tracks ρ Eq (orFault x) (orFault x) := by
  cases x with
  | ok a => exact .pure rfl
  | error fault => exact .throw rfl

theorem tracks_onContext {Q : α → α → Prop} {m m' : ContextM α}
    (h : Parallel Eq (Context.Renamed ρ) Q m m') : Tracks ρ Q (onContext m) (onContext m') := by
  intro s s' hs
  unfold onContext
  obtain ⟨a, c, a', c', hrun, hrun', hresult, hstate⟩ | ⟨e, c, e', c', hrun, hrun', rfl⟩ :=
    (h _ _ hs.context).outcomes
  · rw [hrun, hrun']
    exact .ok hresult ⟨hstate, hs.frame, hs.callSites, hs.objects⟩
  · rw [hrun, hrun']
    exact .error rfl

theorem tracks_allocate (pointer : Bool) : Tracks ρ Eq (allocate pointer) (allocate pointer) := by
  refine .bind .get fun s s' hs => ?_
  rw [hs.frame]
  refine .bind_eq (tracks_orFault _) fun r => .bind_eq (.modify fun t t' ht => ?_) fun _ => .pure rfl
  exact ⟨ht.context, rfl, ht.callSites, ht.objects⟩

theorem tracks_allocateAll (pointers : List Bool) :
    Tracks ρ Eq (allocateAll pointers) (allocateAll pointers) :=
  .mapM tracks_allocate

theorem tracks_addCallSite (d : TypeDescriptor) : Tracks ρ Eq (addCallSite d) (addCallSite d) := by
  refine .bind .get fun s s' hs => ?_
  rw [hs.callSites]
  refine .ite (fun _ => .bind_eq (.set ?_) fun _ => .pure rfl) fun _ => .throw rfl
  exact ⟨hs.context, hs.frame, rfl, hs.objects⟩

theorem tracks_slotOf (value : ValueId) : Tracks ρ Eq (slotOf env value) (slotOf env value) := by
  unfold slotOf
  split
  · exact .pure rfl
  · exact tracks_refuse _

theorem tracks_slotsOf (values : List ValueId) : Tracks ρ Eq (slotsOf env values) (slotsOf env values) :=
  .mapM tracks_slotOf

theorem tracks_expectType (place : Use) (expected found : Ty) :
    Tracks ρ Eq (expectType place expected found) (expectType place expected found) :=
  .ite (fun _ => .pure rfl) fun _ => tracks_refuse _

/-- Globals keep their places. -/
theorem tracks_globalOf (name : String) :
    Tracks ρ (fun g g' => g' = g ∧ ρ.offset g.offset = g.offset) (globalOf name) (globalOf name) := by
  refine .bind .get fun s s' hs => ?_
  rw [hs.context.global?_eq]
  cases hglobal : s.context.global? name with
  | some slot => exact .pure ⟨rfl, hs.context.offset_global hglobal⟩
  | none => exact tracks_refuse _

end Actions

/-! ## Moves -/

section Moves

variable {ρ : Renaming} {env : Env} {source : BlockId}

theorem tracks_phiMoves (instrs : List Instr) :
    Tracks ρ Eq (phiMoves env source instrs) (phiMoves env source instrs) := by
  induction instrs with
  | nil => exact .pure rfl
  | cons i rest ih =>
    cases i with
    | phi value ty incoming =>
      unfold phiMoves
      split
      · exact tracks_refuse _
      · refine .bind_eq (tracks_slotOf _) fun dst => .bind_eq (tracks_slotOf _) fun src => ?_
        exact .bind_eq (tracks_expectType _ _ _) fun _ => .bind_eq ih fun moves => .pure rfl
    | _ => exact .pure rfl

theorem tracks_edgeMoves (target : BlockId) :
    Tracks ρ Eq (edgeMoves env source target) (edgeMoves env source target) := by
  unfold edgeMoves
  split
  · exact tracks_phiMoves _
  · exact tracks_refuse _

/-- Moves are between words of the frame. -/
theorem tracks_moveAll (moves : List Move) :
    Tracks ρ (LinesRenamed ρ) (moveAll moves) (moveAll moves) := by
  refine .ite (fun _ => .bind_eq (tracks_allocateAll _) fun temporaries => .pure ?_) fun _ => .pure ?_
  · simp [LinesRenamed, Function.comp_def]
  · simp [LinesRenamed]

theorem argumentLines_rename (callFrame : Int) (slots : List Slot) :
    (argumentLines callFrame slots).map (Line.rename ρ) = argumentLines callFrame slots := by
  apply List.ext_getElem?
  intro k
  simp [argumentLines, Function.comp_def]

end Moves

/-! ## Instructions -/

section Instructions

variable {ρ : Renaming} {env : Env} {source : BlockId}

theorem tracks_lowerJump (target : BlockId) :
    Tracks ρ (LinesRenamed ρ) (lowerJump env source target) (lowerJump env source target) := by
  refine .bind_eq (tracks_edgeMoves _) fun moves => .bind (tracks_moveAll _) fun lines lines' hlines => ?_
  apply Parallel.pure
  simp [LinesRenamed, hlines, jumpLine]

theorem branchLine_rename (condition : Slot) (fixup : Fixup) :
    (branchLine condition fixup).rename ρ = branchLine condition fixup := rfl

theorem tracks_lowerBranch (condition : ValueId) (thenBlock elseBlock : BlockId) :
    Tracks ρ (LinesRenamed ρ) (lowerBranch env source condition thenBlock elseBlock)
      (lowerBranch env source condition thenBlock elseBlock) := by
  refine .bind_eq (tracks_slotOf _) fun slot => .bind_eq (tracks_expectType _ _ _) fun _ => ?_
  refine .bind_eq (tracks_edgeMoves _) fun thenMoves => .bind_eq (tracks_edgeMoves _) fun elseMoves => ?_
  refine .ite (fun _ => .pure ?_) fun _ => ?_
  · simp [LinesRenamed, jumpLine, branchLine_rename]
  · refine .bind (tracks_moveAll _) fun elseLines elseLines' helse => ?_
    refine .bind (tracks_moveAll _) fun thenLines thenLines' hthen => .pure ?_
    simp [LinesRenamed, helse, hthen, jumpLine, branchLine_rename]

theorem tracks_lowerReturn (value : Option ValueId) :
    Tracks ρ (LinesRenamed ρ) (lowerReturn env value) (lowerReturn env value) := by
  unfold lowerReturn
  split
  · refine .bind_eq (tracks_slotOf _) fun slot => .bind_eq (tracks_expectType _ _ _) fun _ => .pure ?_
    simp [LinesRenamed]
  · apply Parallel.pure
    simp [LinesRenamed]
  · exact tracks_refuse _
  · exact tracks_refuse _

theorem tracks_lowerConst (dst : ValueId) (value : Constant) :
    Tracks ρ (LinesRenamed ρ) (lowerConst env dst value) (lowerConst env dst value) := by
  refine .bind_eq (tracks_slotOf _) fun slot => ?_
  have hcell (cell : Cell) : Tracks ρ (fun o o' => o' = ρ.offset o) (onContext (Context.intern cell))
      (onContext (Context.intern cell)) := tracks_onContext (Context.parallel_intern cell)
  cases value with
  | int n =>
    have hoperand : Tracks ρ (fun o o' => o' = o.rename ρ) (intOperand n) (intOperand n) := by
      refine .ite (fun _ => .pure rfl) fun _ => .bind (hcell (.long n)) fun o o' ho => .pure ?_
      rw [ho]
      rfl
    refine .bind hoperand fun o o' ho => .pure ?_
    simp [LinesRenamed, ho]
  | real r =>
    refine .bind (hcell (.real r)) fun o o' ho => .pure ?_
    simp [LinesRenamed, ho]
  | bool b =>
    apply Parallel.pure
    simp [LinesRenamed]
  | string text =>
    refine .bind (hcell (.string text)) fun o o' ho => .pure ?_
    simp [LinesRenamed, ho]

theorem tracks_lowerMath (dst : ValueId) (op : MathOp) (lhs rhs : ValueId) :
    Tracks ρ (LinesRenamed ρ) (lowerMath env dst op lhs rhs) (lowerMath env dst op lhs rhs) := by
  refine .bind_eq (tracks_slotOf _) fun l => .bind_eq (tracks_slotOf _) fun r => ?_
  refine .bind_eq (tracks_slotOf _) fun d => .bind_eq (tracks_expectType _ _ _) fun _ => ?_
  split
  · exact tracks_refuse _
  · apply Parallel.pure
    -- whatever the order of the operands, all of them are in the frame
    split <;> simp [LinesRenamed]

theorem tracks_lowerCompare (dst : ValueId) (op : Comparison) (lhs rhs : ValueId) :
    Tracks ρ (LinesRenamed ρ) (lowerCompare env dst op lhs rhs) (lowerCompare env dst op lhs rhs) := by
  refine .bind_eq (tracks_slotOf _) fun l => .bind_eq (tracks_slotOf _) fun r => ?_
  refine .bind_eq (tracks_slotOf _) fun d => .bind_eq (tracks_expectType _ _ _) fun _ => ?_
  split
  · exact tracks_refuse _
  · apply Parallel.pure
    simp [LinesRenamed]

theorem tracks_lowerLoadGlobal (dst : ValueId) (name : String) :
    Tracks ρ (LinesRenamed ρ) (lowerLoadGlobal env dst name) (lowerLoadGlobal env dst name) := by
  refine .bind (tracks_globalOf _) ?_
  rintro g _ ⟨rfl, hoffset⟩
  refine .bind_eq (tracks_slotOf _) fun slot => .pure ?_
  simp [LinesRenamed, hoffset]

theorem tracks_lowerStoreGlobal (name : String) (value : ValueId) :
    Tracks ρ (LinesRenamed ρ) (lowerStoreGlobal env name value) (lowerStoreGlobal env name value) := by
  refine .bind (tracks_globalOf _) ?_
  rintro g _ ⟨rfl, hoffset⟩
  refine .bind_eq (tracks_slotOf _) fun slot => .bind_eq (tracks_expectType _ _ _) fun _ => .pure ?_
  simp [LinesRenamed, hoffset]

theorem tracks_lowerNew (dst : ValueId) (fields : List Ty) :
    Tracks ρ (LinesRenamed ρ) (lowerNew env dst fields) (lowerNew env dst fields) := by
  refine .bind_eq (tracks_orFault _) fun size => .bind .get fun s s' hs => ?_
  rw [hs.callSites]
  refine .bind_eq (tracks_orFault _) fun d => .bind_eq (tracks_addCallSite d) fun id => ?_
  refine .bind_eq (tracks_slotOf _) fun slot => .bind_eq (.modify fun t t' ht => ?_) fun _ => .pure ?_
  · exact ⟨ht.context, ht.frame, ht.callSites, congrArg (List.cons _) ht.objects⟩
  · simp [LinesRenamed]

/-- A field is reached through the frame. -/
theorem tracks_fieldOperand (object : ValueId) (field : Nat) (ty : Ty) :
    Tracks ρ (fun o o' => o' = o ∧ o.rename ρ = o) (fieldOperand env object field ty)
      (fieldOperand env object field ty) := by
  refine .bind_eq (tracks_slotOf _) fun slot => .bind_eq (tracks_expectType _ _ _) fun _ => ?_
  refine .bind .get fun s s' hs => ?_
  rw [hs.objects]
  -- whatever is known of the fields, the same end of the computation follows
  have hend : Tracks ρ (fun o o' => o' = o ∧ o.rename ρ = o)
      (if wordOffset 0 field ≤ operandMax then
        pure (Operand.fpIndirect slot.offset (wordOffset 0 field))
      else refuse (.fieldOutOfRange object field))
      (if wordOffset 0 field ≤ operandMax then
        pure (Operand.fpIndirect slot.offset (wordOffset 0 field))
      else refuse (.fieldOutOfRange object field)) :=
    .ite (fun _ => .pure ⟨rfl, rfl⟩) fun _ => tracks_refuse _
  split
  · split
    · exact .bind_eq (tracks_expectType _ _ _) fun _ => hend
    · exact .bind_eq (tracks_refuse _) fun _ => hend
  · exact hend

theorem tracks_lowerLoadField (dst : ValueId) (ty : Ty) (object : ValueId) (field : Nat) :
    Tracks ρ (LinesRenamed ρ) (lowerLoadField env dst ty object field)
      (lowerLoadField env dst ty object field) := by
  refine .bind (tracks_fieldOperand _ _ _) ?_
  rintro operand _ ⟨rfl, hoperand⟩
  refine .bind_eq (tracks_slotOf _) fun slot => .pure ?_
  simp [LinesRenamed, hoperand]

theorem tracks_lowerStoreField (object : ValueId) (field : Nat) (value : ValueId) :
    Tracks ρ (LinesRenamed ρ) (lowerStoreField env object field value)
      (lowerStoreField env object field value) := by
  refine .bind_eq (tracks_slotOf _) fun slot => .bind (tracks_fieldOperand _ _ _) ?_
  rintro operand _ ⟨rfl, hoperand⟩
  apply Parallel.pure
  simp [LinesRenamed, hoperand]

end Instructions

/-! ## Calls -/

section Calls

variable {ρ : Renaming} {env : Env}

theorem resultLine_rename (result callFrame : Int) :
    (resultLine result callFrame).rename ρ = resultLine result callFrame := by
  simp [resultLine]

theorem tracks_checkArguments (callee : String) (index : Nat) (slots : List Slot) (tys : List Ty) :
    Tracks ρ Eq (checkArguments callee index slots tys) (checkArguments callee index slots tys) := by
  induction slots generalizing index tys with
  | nil => exact .pure rfl
  | cons slot slots ih =>
    cases tys with
    | nil => exact .pure rfl
    | cons ty tys => exact .bind_eq (tracks_expectType _ _ _) fun _ => ih _ _

theorem tracks_callResult (callee : String) (result : Option Ty) (dst : Option ValueId) (callFrame : Int) :
    Tracks ρ (LinesRenamed ρ) (callResult env callee result dst callFrame)
      (callResult env callee result dst callFrame) := by
  unfold callResult
  split
  · refine .bind_eq (tracks_slotOf _) fun slot => .pure ?_
    simp [LinesRenamed, resultLine_rename]
  · refine .bind_eq (tracks_allocate _) fun offset => .pure ?_
    simp [LinesRenamed, resultLine_rename]
  · exact tracks_refuse _
  · exact .pure rfl

theorem tracks_lowerCall (dst : Option ValueId) (callee : String) (arguments : List ValueId) :
    Tracks ρ (LinesRenamed ρ) (lowerCall env dst callee arguments) (lowerCall env dst callee arguments) := by
  refine .bind .get fun s s' hs => ?_
  rw [hs.context.functions]
  split
  · exact tracks_refuse _
  · next target _ =>
    refine .ite (fun _ => .bind_eq (tracks_refuse _) fun _ => ?_) fun _ => ?_
    all_goals
      refine .ite (fun _ => .bind_eq (tracks_refuse _) fun _ => ?_) fun _ => ?_
      all_goals
        refine .bind_eq (tracks_slotsOf _) fun slots => .bind_eq (tracks_checkArguments _ _ _ _) fun _ => ?_
        refine .bind_eq (tracks_allocate _) fun callFrame => ?_
        refine .bind (tracks_callResult _ _ _ _) fun result result' hresult => .pure ?_
        simp [LinesRenamed, hresult, argumentLines_rename]

theorem tracks_checkNativeArguments (native : SysFunction) (index : Nat) (slots : List Slot) :
    Tracks ρ Eq (checkNativeArguments native index slots) (checkNativeArguments native index slots) := by
  induction slots generalizing index with
  | nil => exact .pure rfl
  | cons slot slots ih =>
    refine .bind_eq (tracks_orFault _) fun pointer => ?_
    exact .ite (fun _ => .bind_eq (tracks_refuse _) fun _ => ih _) fun _ => ih _

/-- The frame of a system function names the import. -/
theorem tracks_nativeFrame (native : SysFunction) (index : Nat) (slots : List Slot) (callFrame : Int) :
    Tracks ρ (fun line line' => line' = line.rename ρ) (nativeFrame native index slots callFrame)
      (nativeFrame native (ρ.imports index) slots callFrame) := by
  unfold nativeFrame
  split
  · refine .bind_eq (tracks_orFault _) fun size => .bind .get fun s s' hs => ?_
    rw [hs.callSites]
    refine .bind_eq (tracks_orFault _) fun d => .bind_eq (tracks_addCallSite d) fun id => .pure ?_
    simp
  · refine .ite (fun _ => .bind_eq (tracks_refuse _) fun _ => ?_) fun _ => ?_
    all_goals
      refine .bind_eq (tracks_checkNativeArguments _ _ _) fun _ => .pure ?_
      simp [Opcode.importInMiddle]

theorem tracks_nativeResult (native : SysFunction) (dst : Option ValueId) :
    Tracks ρ Eq (nativeResult env native dst) (nativeResult env native dst) := by
  unfold nativeResult
  split
  · refine .ite (fun _ => .bind_eq (tracks_refuse _) fun _ => ?_) fun _ => ?_
    all_goals exact .bind_eq (tracks_slotOf _) fun slot => .pure rfl
  · refine .bind_eq (tracks_allocateAll _) fun offsets => ?_
    split
    · exact .pure rfl
    · exact tracks_allocate _

theorem tracks_lowerNativeCall (dst : Option ValueId) (name : String) (arguments : List ValueId) :
    Tracks ρ (LinesRenamed ρ) (lowerNativeCall env dst name arguments)
      (lowerNativeCall env dst name arguments) := by
  unfold lowerNativeCall
  split
  · exact tracks_refuse _
  · next native _ =>
    refine .bind_eq (tracks_slotsOf _) fun slots => ?_
    refine .bind (tracks_onContext (Context.parallel_nativeImport native)) ?_
    rintro index _ rfl
    refine .bind_eq (tracks_allocate _) fun callFrame => ?_
    refine .bind (tracks_nativeFrame native index slots callFrame) fun frame frame' hframe => ?_
    refine .bind_eq (tracks_nativeResult _ _) fun result => .pure ?_
    simp [LinesRenamed, hframe, argumentLines_rename, resultLine_rename, Opcode.importInMiddle]

end Calls

/-! ## Functions -/

section Functions

variable {ρ : Renaming} {env : Env} {source : BlockId}

/-- **Every instruction** becomes code that differs by the renaming. -/
theorem tracks_lowerInstr (i : Instr) :
    Tracks ρ (LinesRenamed ρ) (lowerInstr env source i) (lowerInstr env source i) := by
  cases i with
  | const dst value => exact tracks_lowerConst _ _
  | math dst op lhs rhs => exact tracks_lowerMath _ _ _ _
  | compare dst op lhs rhs => exact tracks_lowerCompare _ _ _ _
  | phi dst ty incoming => exact .pure rfl
  | loadGlobal dst global => exact tracks_lowerLoadGlobal _ _
  | storeGlobal global value => exact tracks_lowerStoreGlobal _ _
  | new dst fields => exact tracks_lowerNew _ _
  | loadField dst ty object field => exact tracks_lowerLoadField _ _ _ _
  | storeField object field value => exact tracks_lowerStoreField _ _ _
  | call dst callee arguments => exact tracks_lowerCall _ _ _
  | callNative dst function arguments => exact tracks_lowerNativeCall _ _ _
  | jump target => exact tracks_lowerJump _
  | branch condition thenBlock elseBlock => exact tracks_lowerBranch _ _ _
  | ret value => exact tracks_lowerReturn _

theorem tracks_lowerInstrs (is : List Instr) :
    Tracks ρ (LinesRenamed ρ) (lowerInstrs env source is) (lowerInstrs env source is) := by
  induction is with
  | nil => exact .pure rfl
  | cons i is ih =>
    refine .bind (tracks_lowerInstr i) fun front front' hfront => .bind ih fun back back' hback => .pure ?_
    simp [LinesRenamed, hfront, hback]

theorem tracks_lowerBlocks (index : Nat) (blocks : List Ssa.Block) :
    Tracks ρ (fun lines lines' => lines' = lines.map (List.map (Line.rename ρ)))
      (lowerBlocks env index blocks) (lowerBlocks env index blocks) := by
  induction blocks generalizing index with
  | nil => exact .pure rfl
  | cons block blocks ih =>
    refine .bind (tracks_lowerInstrs _) fun lines lines' hlines => ?_
    refine .bind (ih _) fun rest rest' hrest => .pure ?_
    simp [hlines, hrest]

/-- The type of a value depends on the functions that are called and on globals only. -/
theorem valueTypes_eq {c c' : Context} (h : c.Renamed ρ c') (f : Function) :
    valueTypes c' f = valueTypes c f := by
  have hresult (i : Instr) : resultType c' i = resultType c i := by
    cases i with
    | loadGlobal dst name => simp only [resultType, globalType, h.global?_eq]
    | call dst callee arguments =>
      cases dst with
      | none => rfl
      | some dst => simp only [resultType, callType, h.functions]
    | callNative dst function arguments => cases dst <;> rfl
    | _ => rfl
  have hscan (s : Scanned) (is : List Instr) : scan c' s is = scan c s is := by
    have hstep (s : Scanned) (i : Instr) : scanInstr c' s i = scanInstr c s i := by
      unfold scanInstr
      rw [hresult]
    induction is generalizing s with
    | nil => rfl
    | cons i is ih =>
      unfold scan
      rw [hstep]
      exact congrArg _ (funext ih)
  unfold valueTypes
  rw [hscan]

/-- Targets do not depend on places. -/
theorem resolveLines_rename (starts : List Nat) (index : Nat) (lines : List Line) :
    resolveLines starts index (lines.map (Line.rename ρ)) =
      (resolveLines starts index lines).map (List.map (Instruction.rename ρ)) := by
  have hline (index : Nat) (line : Line) : (line.rename ρ).resolve starts index =
      (line.resolve starts index).map (Instruction.rename ρ) := by
    obtain ⟨i, fixup⟩ := line
    cases fixup with
    | settled | callee | ahead => rfl
    | block target =>
      unfold Line.resolve
      cases h : starts[target.index]? <;> simp only [Line.rename, h] <;> rfl
  induction lines generalizing index with
  | nil => rfl
  | cons line lines ih =>
    rw [List.map_cons]
    unfold resolveLines
    rw [hline, ih]
    cases line.resolve starts index with
    | error e => rfl
    | ok i => cases resolveLines starts (index + 1) lines <;> rfl

theorem patchesOf_rename (lines : List Line) : patchesOf (lines.map (Line.rename ρ)) = patchesOf lines := by
  unfold patchesOf
  rw [List.zipIdx_map, List.filterMap_map]
  rfl

theorem fragmentOf_rename (name : String) {s s' : State} (h : s.Renamed ρ s') (blocks : List (List Line)) :
    fragmentOf name s' (blocks.map (List.map (Line.rename ρ))) =
      (fragmentOf name s blocks).map (Fragment.rename ρ) := by
  have hlengths : (blocks.map (List.map (Line.rename ρ))).map List.length = blocks.map List.length := by
    simp [Function.comp_def]
  simp only [fragmentOf, ← List.map_flatten, hlengths, resolveLines_rename, patchesOf_rename, h.frame,
    h.callSites]
  cases resolveLines (blockStarts 0 (blocks.map List.length)) 0 blocks.flatten <;> rfl

/-- **A function** is lowered in the same way in contexts that differ by a renaming. -/
theorem parallel_lowerFunction (f : Function) :
    Parallel Eq (Context.Renamed ρ) (fun fragment fragment' => fragment' = fragment.rename ρ)
      (lowerFunction f) (lowerFunction f) := by
  intro c c' h
  unfold lowerFunction
  rw [valueTypes_eq h]
  split
  · exact .error rfl
  split
  · exact .error rfl
  split
  · exact .error rfl
  · next slots frame _ =>
    unfold lowerBody
    have hstart : State.Renamed ρ ⟨c, frame, [], []⟩ ⟨c', frame, [], []⟩ := ⟨h, rfl, rfl, rfl⟩
    have hblocks : Tracks ρ _ (lowerBlocks ⟨f, slots⟩ 0 f.blocks) _ := tracks_lowerBlocks 0 f.blocks
    obtain ⟨blocks, s, _, s', hrun, hrun', rfl, hstate⟩ | ⟨e, s, _, s', hrun, hrun', rfl⟩ :=
      (hblocks _ _ hstart).outcomes
    · rw [hrun, hrun']
      dsimp only
      rw [fragmentOf_rename f.name hstate]
      cases fragmentOf f.name s blocks with
      | error e => exact .error rfl
      | ok fragment => exact .ok rfl (hstate.context.of_log _ _)
    · rw [hrun, hrun']
      exact .error rfl

/-- **All functions** are. -/
theorem parallel_lowerAll (fs : List Function) :
    Parallel Eq (Context.Renamed ρ)
      (fun fragments fragments' => fragments' = fragments.map (Fragment.rename ρ))
      (lowerAll lowerFunction fs) (lowerAll lowerFunction fs) := by
  induction fs with
  | nil => exact .pure rfl
  | cons f fs ih =>
    refine .bind_eq (.modify fun c c' h => h.of_log _ _) fun _ => ?_
    refine .bind (P := fun fragment fragment' => fragment' = fragment.rename ρ) ?_
      fun fragment fragment' hfragment => .bind ih fun rest rest' hrest => .pure ?_
    · intro c c' h
      obtain ⟨fragment, t, _, t', hrun, hrun', rfl, hstate⟩ | ⟨e, t, _, t', hrun, hrun', rfl⟩ :=
        (parallel_lowerFunction f c c' h).outcomes
      · simp only [hrun, hrun']
        exact .ok rfl hstate
      · simp only [hrun, hrun']
        exact .error rfl
    · rw [hfragment, hrest, List.map_cons]

end Functions
end DisBackend
