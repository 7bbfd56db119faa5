import DisBackend.Proofs.Control.Targets
import DisBackend.Proofs.Faults.Stops

/-!
# `Proofs.Faults.Lowering` — why lowering stops

Lowering a function refuses it, runs into a limit of the machine, or ends well. It never describes a call
site under a wrong number, and it never asks for a pointer that is not at a word. A jump is written only
after its target was found, so that resolving the targets in the end cannot fail.

## Contents

* `stopsFor_slotOf`, `stopsFor_allocate`, … — the basic actions;
* `stopsFor_lowerInstr` — the instructions;
* `exists_fragment` — targets can be resolved;
* `lowerFunction_stop`, `stopsFor_lowerFunction` — the whole.
-/

namespace DisBackend

open Ssa (BlockId Comparison Constant Function Instr MathOp Ty ValueId)

/-! ## The shared context -/

section Context

variable {c : Context}

theorem stopsFor_place (cell : Cell) : StopsFor Fault.IsLimit (Context.place cell) c := by
  intro fault c' h
  unfold Context.place at h
  have hreserve : StopsFor Fault.IsLimit (reserveWord c.moduleData cell.tag cell.isPointer) c.log :=
    .bind (.liftResult (failsFor_reserve _ _ _)) fun _ _ _ => .bind .modify fun _ _ _ => .pure
  cases hrun : reserveWord c.moduleData cell.tag cell.isPointer c.log with
  | ok r log =>
    rw [hrun] at h
    cases h
  | error fault' log =>
    rw [hrun] at h
    cases h
    exact hreserve fault log hrun

theorem stopsFor_intern (cell : Cell) : StopsFor Fault.IsLimit (Context.intern cell) c := by
  intro fault c' h
  unfold Context.intern at h
  cases hfound : c.offsetOf? cell with
  | some offset =>
    rw [hfound] at h
    cases h
  | none =>
    rw [hfound] at h
    exact stopsFor_place cell fault c' h

theorem stopsFor_nativeImport (native : SysFunction) :
    StopsFor Fault.IsLimit (Context.nativeImport native) c := by
  intro fault c' h
  unfold Context.nativeImport at h
  split at h
  · cases h
  · cases h

end Context

/-! ## Basic actions -/

section Actions

variable {α : Type} {env : Env} {s : State}

theorem stopsFor_refuse {e : LowerError} (h : e.NotRedefinition) :
    StopsFor Stop.IsOfBody (refuse e : LowerM α) s := .throw h

theorem stopsFor_orFault {x : Except Fault α} (h : FailsFor Fault.IsLimit x) :
    StopsFor Stop.IsOfBody (orFault x) s := by
  cases x with
  | ok a => exact .pure
  | error fault => exact .throw (h fault rfl)

theorem stopsFor_onContext {m : ContextM α} (h : StopsFor Fault.IsLimit m s.context) :
    StopsFor Stop.IsOfBody (onContext m) s := by
  intro stop s' hrun
  unfold onContext at hrun
  cases hm : m s.context with
  | ok a c =>
    rw [hm] at hrun
    cases hrun
  | error fault c =>
    rw [hm] at hrun
    cases hrun
    exact h fault c hm

theorem stopsFor_allocate (pointer : Bool) : StopsFor Stop.IsOfBody (allocate pointer) s :=
  .bind .get fun _ _ _ => .bind (stopsFor_orFault (failsFor_allocate _ _)) fun _ _ _ =>
    .bind .modify fun _ _ _ => .pure

theorem stopsFor_allocateAll (pointers : List Bool) : StopsFor Stop.IsOfBody (allocateAll pointers) s :=
  .mapM fun pointer _ => stopsFor_allocate pointer

theorem stopsFor_slotOf (value : ValueId) : StopsFor Stop.IsOfBody (slotOf env value) s := by
  unfold slotOf
  split
  · exact .pure
  · exact stopsFor_refuse trivial

theorem stopsFor_slotsOf (values : List ValueId) : StopsFor Stop.IsOfBody (slotsOf env values) s :=
  .mapM fun value _ => stopsFor_slotOf value

theorem stopsFor_expectType (place : Use) (expected found : Ty) :
    StopsFor Stop.IsOfBody (expectType place expected found) s :=
  .ite (fun _ => .pure) fun _ => stopsFor_refuse trivial

theorem stopsFor_globalOf (name : String) : StopsFor Stop.IsOfBody (globalOf name) s := by
  refine .bind .get fun t _ _ => ?_
  split
  · exact .pure
  · exact stopsFor_refuse trivial

/-- A descriptor that carries the number of the next call site can be added. -/
theorem stopsFor_addCallSite {d : TypeDescriptor} (h : d.id = s.callSites.length) :
    StopsFor Stop.IsOfBody (addCallSite d) s := by
  refine .bind .get fun t u ht => ?_
  obtain ⟨rfl, rfl⟩ := get_ok_iff.mp ht
  rw [if_pos h]
  exact .bind .set fun _ _ _ => .pure

/-- **A call site gets the right number.** -/
theorem stopsFor_describe {size base : Int} {words : List Bool} {first : Nat}
    (hbase : base = wordBytes * (first : Int)) {k : Int → LowerM α}
    (hk : ∀ id t, StopsFor Stop.IsOfBody (k id) t) :
    StopsFor Stop.IsOfBody (get >>= fun t => orFault (describe t.callSites.length size base words) >>=
      fun d => addCallSite d >>= k) s := by
  refine .bind .get fun t u ht => ?_
  obtain ⟨rfl, rfl⟩ := get_ok_iff.mp ht
  refine .bind (stopsFor_orFault (failsFor_describe _ _ _ hbase)) fun d u hd => ?_
  obtain ⟨hdescribe, rfl⟩ := orFault_ok_iff.mp hd
  exact .bind (stopsFor_addCallSite (describe_ok hdescribe).1) fun id t _ => hk id t

end Actions

/-! ## Instructions -/

section Instructions

variable {env : Env} {source : BlockId} {s : State}

theorem stopsFor_phiMoves (instrs : List Instr) : StopsFor Stop.IsOfBody (phiMoves env source instrs) s := by
  induction instrs generalizing s with
  | nil => exact .pure
  | cons i rest ih =>
    cases i with
    | phi value ty incoming =>
      unfold phiMoves
      split
      · exact stopsFor_refuse trivial
      · refine .bind (stopsFor_slotOf _) fun dst _ _ => .bind (stopsFor_slotOf _) fun src _ _ => ?_
        exact .bind (stopsFor_expectType _ _ _) fun _ _ _ => .bind ih fun _ _ _ => .pure
    | _ => exact .pure

theorem stopsFor_edgeMoves (target : BlockId) : StopsFor Stop.IsOfBody (edgeMoves env source target) s := by
  unfold edgeMoves
  split
  · exact stopsFor_phiMoves _
  · exact stopsFor_refuse trivial

theorem stopsFor_moveAll (moves : List Move) : StopsFor Stop.IsOfBody (moveAll moves) s :=
  .ite (fun _ => .bind (stopsFor_allocateAll _) fun _ _ _ => .pure) fun _ => .pure

theorem stopsFor_lowerJump (target : BlockId) : StopsFor Stop.IsOfBody (lowerJump env source target) s :=
  .bind (stopsFor_edgeMoves target) fun _ _ _ => .bind (stopsFor_moveAll _) fun _ _ _ => .pure

theorem stopsFor_lowerBranch (condition : ValueId) (thenBlock elseBlock : BlockId) :
    StopsFor Stop.IsOfBody (lowerBranch env source condition thenBlock elseBlock) s := by
  refine .bind (stopsFor_slotOf _) fun slot _ _ => .bind (stopsFor_expectType _ _ _) fun _ _ _ => ?_
  refine .bind (stopsFor_edgeMoves _) fun thenMoves _ _ => ?_
  refine .bind (stopsFor_edgeMoves _) fun elseMoves _ _ => ?_
  refine .ite (fun _ => .pure) fun _ => ?_
  exact .bind (stopsFor_moveAll _) fun _ _ _ => .bind (stopsFor_moveAll _) fun _ _ _ => .pure

theorem stopsFor_lowerReturn (value : Option ValueId) : StopsFor Stop.IsOfBody (lowerReturn env value) s := by
  unfold lowerReturn
  split
  · exact .bind (stopsFor_slotOf _) fun _ _ _ => .bind (stopsFor_expectType _ _ _) fun _ _ _ => .pure
  · exact .pure
  · exact stopsFor_refuse trivial
  · exact stopsFor_refuse trivial

theorem stopsFor_lowerConst (dst : ValueId) (value : Constant) :
    StopsFor Stop.IsOfBody (lowerConst env dst value) s := by
  refine .bind (stopsFor_slotOf _) fun slot t _ => ?_
  have hcell (cell : Cell) {t : State} : StopsFor Stop.IsOfBody (onContext (Context.intern cell)) t :=
    stopsFor_onContext (stopsFor_intern cell)
  cases value with
  | int n =>
    refine .bind (.ite (fun _ => .pure) fun _ => ?_) fun _ _ _ => .pure
    exact .bind (hcell (.long n)) fun _ _ _ => .pure
  | real r => exact .bind (hcell (.real r)) fun _ _ _ => .pure
  | bool b => exact .pure
  | string text => exact .bind (hcell (.string text)) fun _ _ _ => .pure

theorem stopsFor_lowerMath (dst : ValueId) (op : MathOp) (lhs rhs : ValueId) :
    StopsFor Stop.IsOfBody (lowerMath env dst op lhs rhs) s := by
  refine .bind (stopsFor_slotOf _) fun l _ _ => .bind (stopsFor_slotOf _) fun r _ _ => ?_
  refine .bind (stopsFor_slotOf _) fun d _ _ => .bind (stopsFor_expectType _ _ _) fun _ _ _ => ?_
  split
  · exact stopsFor_refuse trivial
  · exact .pure

theorem stopsFor_lowerCompare (dst : ValueId) (op : Comparison) (lhs rhs : ValueId) :
    StopsFor Stop.IsOfBody (lowerCompare env dst op lhs rhs) s := by
  refine .bind (stopsFor_slotOf _) fun l _ _ => .bind (stopsFor_slotOf _) fun r _ _ => ?_
  refine .bind (stopsFor_slotOf _) fun d _ _ => .bind (stopsFor_expectType _ _ _) fun _ _ _ => ?_
  split
  · exact stopsFor_refuse trivial
  · exact .pure

theorem stopsFor_lowerNew (dst : ValueId) (fields : List Ty) :
    StopsFor Stop.IsOfBody (lowerNew env dst fields) s := by
  refine .bind (stopsFor_orFault (failsFor_checkedMul _ _)) fun size _ _ => ?_
  refine stopsFor_describe zero_eq_words fun id _ => ?_
  exact .bind (stopsFor_slotOf _) fun _ _ _ => .bind .modify fun _ _ _ => .pure

theorem stopsFor_fieldOperand (object : ValueId) (field : Nat) (ty : Ty) :
    StopsFor Stop.IsOfBody (fieldOperand env object field ty) s := by
  refine .bind (stopsFor_slotOf _) fun slot _ _ => .bind (stopsFor_expectType _ _ _) fun _ _ _ => ?_
  refine .bind .get fun t _ _ => ?_
  -- whatever is known of the fields, the same end of the computation follows
  have hend {t : State} : StopsFor Stop.IsOfBody (if wordOffset 0 field ≤ operandMax then
        pure (Operand.fpIndirect slot.offset (wordOffset 0 field))
      else refuse (.fieldOutOfRange object field) : LowerM Operand) t :=
    .ite (fun _ => .pure) fun _ => stopsFor_refuse trivial
  split
  · split
    · exact .bind (stopsFor_expectType _ _ _) fun _ _ _ => hend
    · exact .bind (stopsFor_refuse trivial) fun _ _ _ => hend
  · exact hend

theorem stopsFor_lowerLoadField (dst : ValueId) (ty : Ty) (object : ValueId) (field : Nat) :
    StopsFor Stop.IsOfBody (lowerLoadField env dst ty object field) s :=
  .bind (stopsFor_fieldOperand _ _ _) fun _ _ _ => .bind (stopsFor_slotOf _) fun _ _ _ => .pure

theorem stopsFor_lowerStoreField (object : ValueId) (field : Nat) (value : ValueId) :
    StopsFor Stop.IsOfBody (lowerStoreField env object field value) s :=
  .bind (stopsFor_slotOf _) fun _ _ _ => .bind (stopsFor_fieldOperand _ _ _) fun _ _ _ => .pure

theorem stopsFor_lowerLoadGlobal (dst : ValueId) (name : String) :
    StopsFor Stop.IsOfBody (lowerLoadGlobal env dst name) s :=
  .bind (stopsFor_globalOf _) fun _ _ _ => .bind (stopsFor_slotOf _) fun _ _ _ => .pure

theorem stopsFor_lowerStoreGlobal (name : String) (value : ValueId) :
    StopsFor Stop.IsOfBody (lowerStoreGlobal env name value) s :=
  .bind (stopsFor_globalOf _) fun _ _ _ => .bind (stopsFor_slotOf _) fun _ _ _ =>
    .bind (stopsFor_expectType _ _ _) fun _ _ _ => .pure

theorem stopsFor_checkArguments (callee : String) (index : Nat) (slots : List Slot) (tys : List Ty) :
    StopsFor Stop.IsOfBody (checkArguments callee index slots tys) s := by
  induction slots generalizing index tys s with
  | nil => exact .pure
  | cons slot slots ih =>
    cases tys with
    | nil => exact .pure
    | cons ty tys => exact .bind (stopsFor_expectType _ _ _) fun _ _ _ => ih _ _

theorem stopsFor_callResult (callee : String) (result : Option Ty) (dst : Option ValueId)
    (callFrame : Int) : StopsFor Stop.IsOfBody (callResult env callee result dst callFrame) s := by
  unfold callResult
  split
  · exact .bind (stopsFor_slotOf _) fun _ _ _ => .pure
  · exact .bind (stopsFor_allocate _) fun _ _ _ => .pure
  · exact stopsFor_refuse trivial
  · exact .pure

theorem stopsFor_lowerCall (dst : Option ValueId) (callee : String) (arguments : List ValueId) :
    StopsFor Stop.IsOfBody (lowerCall env dst callee arguments) s := by
  refine .bind .get fun t _ _ => ?_
  split
  · exact stopsFor_refuse trivial
  · next target _ =>
    -- both checks of the target lead to the same end of the computation
    have hend {t : State} : StopsFor Stop.IsOfBody (do
        let slots ← slotsOf env arguments
        checkArguments callee 0 slots target.parameters
        let callFrame ← allocate false
        let result ← callResult env callee target.result dst callFrame
        return (⟨.binary .frame (.imm 0) (.fp callFrame), .callee .frameId callee⟩ : Line)
          :: argumentLines callFrame slots ++ result
          ++ [⟨.binary .call (.fp callFrame) (.imm 0), .callee .callAddress callee⟩]) t :=
      .bind (stopsFor_slotsOf _) fun _ _ _ => .bind (stopsFor_checkArguments _ _ _ _) fun _ _ _ =>
        .bind (stopsFor_allocate _) fun _ _ _ => .bind (stopsFor_callResult _ _ _ _) fun _ _ _ => .pure
    refine .ite (fun _ => .bind (stopsFor_refuse trivial) fun _ _ _ => ?_) fun _ => ?_
    · exact .ite (fun _ => .bind (stopsFor_refuse trivial) fun _ _ _ => hend) fun _ => hend
    · exact .ite (fun _ => .bind (stopsFor_refuse trivial) fun _ _ _ => hend) fun _ => hend

theorem stopsFor_checkNativeArguments (native : SysFunction) (index : Nat) (slots : List Slot) :
    StopsFor Stop.IsOfBody (checkNativeArguments native index slots) s := by
  induction slots generalizing index s with
  | nil => exact .pure
  | cons slot slots ih =>
    refine .bind (stopsFor_orFault (failsFor_parameterIsPointer _ _)) fun pointer _ _ => ?_
    exact .ite (fun _ => .bind (stopsFor_refuse trivial) fun _ _ _ => ih _) fun _ => ih _

theorem stopsFor_nativeFrame (native : SysFunction) (index : Nat) (slots : List Slot) (callFrame : Int) :
    StopsFor Stop.IsOfBody (nativeFrame native index slots callFrame) s := by
  unfold nativeFrame
  split
  · refine .bind (stopsFor_orFault ?_) fun size _ _ => ?_
    · exact .bind (failsFor_checkedMul _ _) fun _ _ => failsFor_checkedAdd _ _
    · exact stopsFor_describe headerBytes_eq fun id _ => .pure
  · have hend {t : State} : StopsFor Stop.IsOfBody (do
        checkNativeArguments native 0 slots
        return (⟨.ternary .mframe (.mp sysOffset) (.imm index) (.fp callFrame), .settled⟩ : Line)) t :=
      .bind (stopsFor_checkNativeArguments _ _ _) fun _ _ _ => .pure
    exact .ite (fun _ => .bind (stopsFor_refuse trivial) fun _ _ _ => hend) fun _ => hend

theorem stopsFor_nativeResult (native : SysFunction) (dst : Option ValueId) :
    StopsFor Stop.IsOfBody (nativeResult env native dst) s := by
  unfold nativeResult
  split
  · next value =>
    have hend {t : State} : StopsFor Stop.IsOfBody (do return (← slotOf env value).offset) t :=
      .bind (stopsFor_slotOf _) fun _ _ _ => .pure
    exact .ite (fun _ => .bind (stopsFor_refuse trivial) fun _ _ _ => hend) fun _ => hend
  · refine .bind (stopsFor_allocateAll _) fun offsets _ _ => ?_
    split
    · exact .pure
    · exact stopsFor_allocate _

theorem stopsFor_lowerNativeCall (dst : Option ValueId) (name : String) (arguments : List ValueId) :
    StopsFor Stop.IsOfBody (lowerNativeCall env dst name arguments) s := by
  unfold lowerNativeCall
  split
  · exact stopsFor_refuse trivial
  · refine .bind (stopsFor_slotsOf _) fun slots _ _ => ?_
    refine .bind (stopsFor_onContext (stopsFor_nativeImport _)) fun index _ _ => ?_
    refine .bind (stopsFor_allocate _) fun callFrame _ _ => ?_
    exact .bind (stopsFor_nativeFrame _ _ _ _) fun _ _ _ =>
      .bind (stopsFor_nativeResult _ _) fun _ _ _ => .pure

/-- **Lowering an instruction** stops with a verdict or at a limit. -/
theorem stopsFor_lowerInstr (i : Instr) : StopsFor Stop.IsOfBody (lowerInstr env source i) s := by
  cases i with
  | const dst value => exact stopsFor_lowerConst dst value
  | math dst op lhs rhs => exact stopsFor_lowerMath dst op lhs rhs
  | compare dst op lhs rhs => exact stopsFor_lowerCompare dst op lhs rhs
  | phi dst ty incoming => exact .pure
  | loadGlobal dst global => exact stopsFor_lowerLoadGlobal dst global
  | storeGlobal global value => exact stopsFor_lowerStoreGlobal global value
  | new dst fields => exact stopsFor_lowerNew dst fields
  | loadField dst ty object field => exact stopsFor_lowerLoadField dst ty object field
  | storeField object field value => exact stopsFor_lowerStoreField object field value
  | call dst callee arguments => exact stopsFor_lowerCall dst callee arguments
  | callNative dst function arguments => exact stopsFor_lowerNativeCall dst function arguments
  | jump target => exact stopsFor_lowerJump target
  | branch condition thenBlock elseBlock => exact stopsFor_lowerBranch condition thenBlock elseBlock
  | ret value => exact stopsFor_lowerReturn value

theorem stopsFor_lowerInstrs (instrs : List Instr) :
    StopsFor Stop.IsOfBody (lowerInstrs env source instrs) s := by
  induction instrs generalizing s with
  | nil => exact .pure
  | cons i rest ih => exact .bind (stopsFor_lowerInstr i) fun _ _ _ => .bind ih fun _ _ _ => .pure

theorem stopsFor_lowerBlocks (index : Nat) (blocks : List Ssa.Block) :
    StopsFor Stop.IsOfBody (lowerBlocks env index blocks) s := by
  induction blocks generalizing index s with
  | nil => exact .pure
  | cons block rest ih =>
    exact .bind (stopsFor_lowerInstrs _) fun _ _ _ => .bind (ih _) fun _ _ _ => .pure

end Instructions

/-! ## Targets -/

theorem length_blockStarts (start : Nat) (lengths : List Nat) :
    (blockStarts start lengths).length = lengths.length := by
  induction lengths generalizing start with
  | nil => rfl
  | cons length lengths ih => rw [blockStarts, List.length_cons, ih, List.length_cons]

/-- Lines whose targets exist can be resolved. -/
theorem exists_resolveLines {starts : List Nat} {lines : List Line}
    (h : ∀ line ∈ lines, ∀ target, line.fixup = .block target → target.index < starts.length)
    (index : Nat) : ∃ is, resolveLines starts index lines = .ok is := by
  induction lines generalizing index with
  | nil => exact ⟨[], rfl⟩
  | cons line lines ih =>
    have hline : ∃ i, line.resolve starts index = .ok i := by
      unfold Line.resolve
      cases hfixup : line.fixup with
      | block target =>
        have hlt := h line List.mem_cons_self target hfixup
        simp only [List.getElem?_eq_getElem hlt]
        exact ⟨_, rfl⟩
      | settled | ahead | callee => exact ⟨_, rfl⟩
    obtain ⟨i, hi⟩ := hline
    obtain ⟨is, his⟩ := ih (fun l hl => h l (List.mem_cons_of_mem _ hl)) (index + 1)
    exact ⟨i :: is, by rw [resolveLines, hi, his]; rfl⟩

/-- A line that was written for an instruction goes to a block of the function, if to any. -/
theorem Emits.target_lt {env : Env} {source : BlockId} {s s' : State} {j : Instr} {lines : List Line}
    (h : Emits env source s j lines s') {line : Line} (hline : line ∈ lines) {target : BlockId}
    (hfixup : line.fixup = .block target) : target.index < env.function.blocks.length := by
  obtain ⟨r, hr⟩ := List.mem_iff_getElem?.mp hline
  cases h.form hr with
  | block _ _ _ hexists =>
    cases hfixup
    exact hexists
  | plain | site | ahead | frame | call => cases hfixup

/-- **The blocks of a function that were lowered make a fragment:** all targets can be resolved. -/
theorem exists_fragment {f : Function} {slots : List (ValueId × Slot)} {s s' : State}
    {blocks : List (List Line)} (h : lowerBlocks ⟨f, slots⟩ 0 f.blocks s = .ok blocks s') (name : String) :
    ∃ fragment, fragmentOf name s' blocks = .ok fragment := by
  obtain ⟨pieces, rfl, hemitted⟩ := lowerBlocks_emits h
  have hcount : pieces.length = f.blocks.length := by
    rw [← hemitted.length_eq, List.length_zipIdx]
  have htargets : ∀ line ∈ (pieces.map List.flatten).flatten, ∀ target, line.fixup = .block target →
      target.index < (blockStarts 0 ((pieces.map List.flatten).map List.length)).length := by
    intro line hline target hfixup
    rw [length_blockStarts, List.length_map, List.length_map, hcount]
    -- the line is one of an instruction of a block
    obtain ⟨lines, hlines, hmem⟩ := List.mem_flatten.mp hline
    obtain ⟨block, hblock, rfl⟩ := List.mem_map.mp hlines
    obtain ⟨piece, hpiece, hmem⟩ := List.mem_flatten.mp hmem
    obtain ⟨t, b, t', hemitsBlock⟩ := hemitted.exists_of_mem hblock
    obtain ⟨u, i, u', hemits⟩ := Threaded.exists_of_mem hemitsBlock hpiece
    exact hemits.target_lt hmem hfixup
  obtain ⟨code, hcode⟩ := exists_resolveLines htargets 0
  simp only [fragmentOf, hcode]
  exact ⟨_, rfl⟩

/-! ## Functions -/

theorem failsFor_assignSlots (frame : Frame) (types : Typing) :
    FailsFor Fault.IsLimit (assignSlots frame types) := by
  induction types generalizing frame with
  | nil => exact .ok
  | cons p types ih => exact .bind (failsFor_allocate _ _) fun _ _ => .bind (ih _) fun _ _ => .pure

/-- What stops the lowering of a function: the shape of its blocks, a value without a type, or something in
its body. -/
theorem lowerFunction_stop {f : Function} {c c' : Context} {stop : Stop}
    (h : lowerFunction f c = .error stop c') :
    (∃ e, stop = .error e ∧ (f.shapeFault? = some e ∨ valueTypes c f = .error e)) ∨ stop.IsOfBody := by
  unfold lowerFunction at h
  split at h
  · next e hshape =>
    cases h
    exact .inl ⟨e, rfl, .inl hshape⟩
  · split at h
    · next e htypes =>
      cases h
      exact .inl ⟨e, rfl, .inr htypes⟩
    · next types _ =>
      refine .inr ?_
      cases hassign : assignSlots {} types with
      | error fault =>
        rw [hassign] at h
        cases h
        exact failsFor_assignSlots {} types fault hassign
      | ok r =>
        obtain ⟨slots, frame⟩ := r
        simp only [hassign, lowerBody] at h
        cases hblocks : lowerBlocks ⟨f, slots⟩ 0 f.blocks ⟨c, frame, [], []⟩ with
        | error stop' s =>
          rw [hblocks] at h
          cases h
          exact stopsFor_lowerBlocks 0 f.blocks stop s hblocks
        | ok blocks s =>
          obtain ⟨fragment, hfragment⟩ := exists_fragment hblocks f.name
          simp only [hblocks, hfragment] at h
          cases h

/-- **Lowering a function** stops with a verdict or at a limit. -/
theorem stopsFor_lowerFunction (f : Function) (c : Context) :
    StopsFor Stop.IsFair (lowerFunction f) c := by
  intro stop c' h
  rcases lowerFunction_stop h with ⟨e, rfl, -⟩ | hbody
  · trivial
  · exact hbody.isFair

end DisBackend
