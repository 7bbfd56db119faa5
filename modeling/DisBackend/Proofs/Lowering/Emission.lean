import DisBackend.Proofs.Outcome

/-!
# `Proofs.Lowering.Emission` — what lowering one instruction can do

Lowering checks, allocates and writes in one computation. This module separates the three: `Emits` says,
case by case, under which conditions an instruction is accepted, which lines it becomes and how the
state changes. Everything proved about lowered code is proved from these cases; none of the later
modules opens the computation again.

## Contents

* the basic actions of `LowerM`, read backwards;
* `EdgeMoves`, `Moved` — the moves on an edge, and the lines that carry them out;
* `CallResult`, `NativeFrame`, `NativeResult` — the parts of a call;
* `Emits`, `lowerInstr_emits` — the instructions.
-/

namespace DisBackend

open Ssa (BlockId Comparison Constant Function Instr MathOp PhiEdge Ty ValueId)

/-! ## Basic actions -/

section Actions

variable {α : Type} {env : Env} {s s' : State}

theorem refuse_ok_iff {e : LowerError} {a : α} : (refuse e : LowerM α) s = .ok a s' ↔ False :=
  throw_ok_iff

theorem orFault_ok_iff {x : Except Fault α} {a : α} :
    orFault x s = .ok a s' ↔ x = .ok a ∧ s = s' := by
  cases x with
  | ok b => simp [orFault, pure_ok_iff]
  | error e => simp [orFault, throw_ok_iff]

theorem onContext_ok_iff {m : ContextM α} {a : α} :
    onContext m s = .ok a s' ↔ ∃ c, m s.context = .ok a c ∧ { s with context := c } = s' := by
  unfold onContext
  cases hm : m s.context with
  | ok b c =>
    constructor
    · intro h; cases h; exact ⟨c, rfl, rfl⟩
    · rintro ⟨c', he, rfl⟩; cases he; rfl
  | error e c =>
    constructor
    · intro h; cases h
    · rintro ⟨c', he, _⟩; cases he

theorem slotOf_ok_iff {v : ValueId} {slot : Slot} :
    slotOf env v s = .ok slot s' ↔ env.slots.lookup v = some slot ∧ s = s' := by
  unfold slotOf
  cases env.slots.lookup v with
  | some x => simp [pure_ok_iff]
  | none => simp [refuse_ok_iff]

theorem expectType_ok_iff {place : Use} {expected found : Ty} {u : Unit} :
    expectType place expected found s = .ok u s' ↔ expected = found ∧ s = s' := by
  unfold expectType
  by_cases h : expected = found
  · simp [h, pure_ok_iff]
  · simp [h, refuse_ok_iff]

theorem globalOf_ok_iff {name : String} {slot : GlobalSlot} :
    globalOf name s = .ok slot s' ↔ s.context.global? name = some slot ∧ s = s' := by
  simp only [globalOf, bind_ok_iff, get_ok_iff]
  constructor
  · rintro ⟨t, u, ⟨rfl, rfl⟩, h⟩
    cases hg : s.context.global? name with
    | some x => simp only [hg, pure_ok_iff] at h; exact ⟨congrArg some h.1, h.2⟩
    | none => simp only [hg, refuse_ok_iff] at h
  · rintro ⟨hg, rfl⟩
    exact ⟨s, s, ⟨rfl, rfl⟩, by simp only [hg, pure_ok_iff, and_self]⟩

/-- A new word lies where the frame ended, and the frame is one word longer. -/
theorem allocate_ok_iff {pointer : Bool} {offset : Int} :
    allocate pointer s = .ok offset s' ↔
      FitsInt32 (s.frame.size + wordBytes) ∧ offset = s.frame.size ∧
      s' = { s with frame := ⟨s.frame.words ++ [pointer]⟩ } := by
  simp only [allocate, bind_ok_iff, get_ok_iff, orFault_ok_iff, modify_ok_iff, pure_ok_iff]
  constructor
  · rintro ⟨t, u, ⟨rfl, rfl⟩, ⟨o, frame⟩, v, ⟨ha, rfl⟩, _, w, rfl, rfl, rfl⟩
    obtain ⟨hfits, rfl, rfl⟩ := Frame.allocate_ok_iff.mp ha
    exact ⟨hfits, rfl, rfl⟩
  · rintro ⟨hfits, rfl, rfl⟩
    exact ⟨s, s, ⟨rfl, rfl⟩, ⟨_, _⟩, s, ⟨Frame.allocate_ok_iff.mpr ⟨hfits, rfl, rfl⟩, rfl⟩,
      .unit, _, rfl, rfl, rfl⟩

/-- The offsets of `count` words from the end of a frame on. -/
def Frame.nextOffsets (f : Frame) (count : Nat) : List Int :=
  (List.range count).map fun index => wordOffset headerBytes (f.words.length + index)

theorem Frame.nextOffsets_succ (f : Frame) (pointer : Bool) (count : Nat) :
    f.nextOffsets (count + 1) = f.size :: Frame.nextOffsets ⟨f.words ++ [pointer]⟩ count := by
  unfold nextOffsets
  rw [List.range_succ_eq_map, List.map_cons, List.map_map]
  congr 1
  apply List.map_congr_left
  intro index _
  simp only [Function.comp_apply, List.length_append, List.length_cons, List.length_nil]
  congr 1
  omega

theorem allocateAll_ok {pointers : List Bool} {offsets : List Int}
    (h : allocateAll pointers s = .ok offsets s') :
    offsets = s.frame.nextOffsets pointers.length ∧
      s' = { s with frame := ⟨s.frame.words ++ pointers⟩ } := by
  unfold allocateAll at h
  induction pointers generalizing s offsets with
  | nil =>
    obtain ⟨rfl, rfl⟩ := mapM_nil_ok_iff.mp h
    exact ⟨rfl, by simp⟩
  | cons p pointers ih =>
    obtain ⟨offset, t, rest, hp, hrest, rfl⟩ := mapM_cons_ok_iff.mp h
    obtain ⟨-, rfl, rfl⟩ := allocate_ok_iff.mp hp
    obtain ⟨rfl, rfl⟩ := ih hrest
    exact ⟨by rw [List.length_cons, Frame.nextOffsets_succ _ p], by simp⟩

theorem addCallSite_ok_iff {d : TypeDescriptor} {id : Int} :
    addCallSite d s = .ok id s' ↔
      d.id = s.callSites.length ∧ id = d.id ∧ s' = { s with callSites := s.callSites ++ [d] } := by
  simp only [addCallSite, bind_ok_iff, get_ok_iff]
  constructor
  · rintro ⟨t, u, ⟨rfl, rfl⟩, h⟩
    by_cases hd : d.id = s.callSites.length
    · simp only [hd, if_true, bind_ok_iff, set_ok_iff, pure_ok_iff] at h
      obtain ⟨_, _, rfl, rfl, rfl⟩ := h
      exact ⟨hd, hd.symm, rfl⟩
    · simp only [hd, if_false, throw_ok_iff] at h
  · rintro ⟨hd, rfl, rfl⟩
    refine ⟨s, s, ⟨rfl, rfl⟩, ?_⟩
    rw [if_pos hd]
    exact bind_ok_iff.mpr ⟨.unit, _, set_ok_iff.mpr rfl, pure_ok_iff.mpr ⟨rfl, rfl⟩⟩

theorem slotsOf_ok {values : List ValueId} {slots : List Slot}
    (h : slotsOf env values s = .ok slots s') :
    List.Forall₂ (fun v slot => env.slots.lookup v = some slot) values slots ∧ s = s' := by
  unfold slotsOf at h
  induction values generalizing slots with
  | nil =>
    obtain ⟨rfl, rfl⟩ := mapM_nil_ok_iff.mp h
    exact ⟨.nil, rfl⟩
  | cons v values ih =>
    obtain ⟨slot, t, rest, hv, hrest, rfl⟩ := mapM_cons_ok_iff.mp h
    obtain ⟨hslot, rfl⟩ := slotOf_ok_iff.mp hv
    obtain ⟨hslots, rfl⟩ := ih hrest
    exact ⟨.cons hslot hslots, rfl⟩

end Actions

/-! ## Moves -/

/-- The moves that give the phis at the start of a block their values when control comes from
`source`. -/
inductive EdgeMoves (env : Env) (source : BlockId) : List Instr → List Move → Prop where
  | done {instrs : List Instr} (head : ∀ i ∈ instrs.head?, i.isPhi = false) :
      EdgeMoves env source instrs []
  | phi {value : ValueId} {ty : Ty} {incoming : List PhiEdge} {edge : PhiEdge} {dst src : Slot}
      {rest : List Instr} {moves : List Move}
      (edge_found : incoming.find? (·.block = source) = some edge)
      (dst_slot : env.slots.lookup value = some dst)
      (src_slot : env.slots.lookup edge.value = some src)
      (same_type : dst.ty = src.ty) (tail : EdgeMoves env source rest moves) :
      EdgeMoves env source (.phi value ty incoming :: rest)
        (if src.offset = dst.offset then moves else ⟨dst.ty, src.offset, dst.offset⟩ :: moves)

section Moves

variable {env : Env} {source target : BlockId} {s s' : State}

theorem phiMoves_ok {instrs : List Instr} {moves : List Move}
    (h : phiMoves env source instrs s = .ok moves s') :
    EdgeMoves env source instrs moves ∧ s = s' := by
  induction instrs generalizing moves with
  | nil =>
    obtain ⟨rfl, rfl⟩ := pure_ok_iff.mp h
    exact ⟨.done (by simp), rfl⟩
  | cons i rest ih =>
    by_cases hphi : i.isPhi
    · cases i <;> simp only [Instr.isPhi, Bool.false_eq_true] at hphi
      rename_i value ty incoming
      rw [phiMoves] at h
      cases hedge : incoming.find? (·.block = source) with
      | none => simp only [hedge, refuse_ok_iff] at h
      | some edge =>
        simp only [hedge, bind_ok_iff, slotOf_ok_iff, expectType_ok_iff, pure_ok_iff] at h
        obtain ⟨dst, _, ⟨hdst, rfl⟩, src, _, ⟨hsrc, rfl⟩, _, _, ⟨hty, rfl⟩, tail, _, htail, rfl, rfl⟩ := h
        obtain ⟨hmoves, rfl⟩ := ih htail
        exact ⟨.phi hedge hdst hsrc hty hmoves, rfl⟩
    · have hnone : phiMoves env source (i :: rest) = pure [] := by
        cases i <;> simp [Instr.isPhi] at hphi <;> rfl
      rw [hnone] at h
      obtain ⟨rfl, rfl⟩ := pure_ok_iff.mp h
      exact ⟨.done (by simpa using hphi), rfl⟩

theorem edgeMoves_ok {moves : List Move} (h : edgeMoves env source target s = .ok moves s') :
    (∃ block, env.function.block? target = some block ∧
      EdgeMoves env source block.instructions moves) ∧ s = s' := by
  unfold edgeMoves at h
  cases hblock : env.function.block? target with
  | none => simp only [hblock, refuse_ok_iff] at h
  | some block =>
    simp only [hblock] at h
    obtain ⟨hmoves, rfl⟩ := phiMoves_ok h
    exact ⟨⟨block, rfl, hmoves⟩, rfl⟩

/-- The lines that move words in the order given. -/
def directLines (moves : List Move) : List Line :=
  moves.map fun m => moveLine m.ty (.fp m.src) (.fp m.dst)

/-- The moves that bring every source into its temporary. -/
def savingMoves (moves : List Move) (temporaries : List Int) : List Move :=
  (moves.zip temporaries).map fun (m, t) => ⟨m.ty, m.src, t⟩

/-- The moves that bring every temporary to its destination. -/
def restoringMoves (moves : List Move) (temporaries : List Int) : List Move :=
  (moves.zip temporaries).map fun (m, t) => ⟨m.ty, t, m.dst⟩

/-- The lines that carry out `moves` at the same time, and the frame that this takes. -/
inductive Moved (moves : List Move) (s : State) : List Line → State → Prop where
  | direct (apart : overlap moves = false) : Moved moves s (directLines moves) s
  | through (mixed : overlap moves = true) :
      Moved moves s
        (directLines (savingMoves moves (s.frame.nextOffsets moves.length)) ++
          directLines (restoringMoves moves (s.frame.nextOffsets moves.length)))
        { s with frame := ⟨s.frame.words ++ moves.map (·.ty.isPointer)⟩ }

theorem moveAll_ok {moves : List Move} {lines : List Line} (h : moveAll moves s = .ok lines s') :
    Moved moves s lines s' := by
  unfold moveAll at h
  by_cases hover : overlap moves = true
  · rw [if_pos hover] at h
    obtain ⟨temporaries, t, halloc, h⟩ := bind_ok_iff.mp h
    obtain ⟨rfl, rfl⟩ := pure_ok_iff.mp h
    obtain ⟨rfl, rfl⟩ := allocateAll_ok halloc
    have hmoved := Moved.through (s := s) hover
    simp only [directLines, savingMoves, restoringMoves, List.map_map] at hmoved
    rw [List.length_map]
    exact hmoved
  · rw [if_neg hover] at h
    obtain ⟨rfl, rfl⟩ := pure_ok_iff.mp h
    exact .direct (by simpa using hover)

end Moves

/-! ## Fields -/

/-- Field `field` of `object`, which lies in the slot `base`, may be accessed at type `ty`. -/
structure FieldAccess (env : Env) (s : State) (object : ValueId) (field : Nat) (ty : Ty)
    (base : Slot) : Prop where
  slot : env.slots.lookup object = some base
  isObject : base.ty = .object
  known : ∀ fields, s.objects.lookup object = some fields → fields[field]? = some ty
  inReach : wordOffset 0 field ≤ operandMax

theorem fieldOperand_ok {env : Env} {s s' : State} {object : ValueId} {field : Nat} {ty : Ty}
    {operand : Operand} (h : fieldOperand env object field ty s = .ok operand s') :
    ∃ base, FieldAccess env s object field ty base ∧
      operand = .fpIndirect base.offset (wordOffset 0 field) ∧ s = s' := by
  simp only [fieldOperand, bind_ok_iff, slotOf_ok_iff, expectType_ok_iff, get_ok_iff] at h
  obtain ⟨base, _, ⟨hslot, rfl⟩, _, _, ⟨hobject, rfl⟩, _, _, ⟨rfl, rfl⟩, h⟩ := h
  -- whatever is known of the fields, the same end of the computation follows
  have hend : ∀ t, (if wordOffset 0 field ≤ operandMax then
        pure (Operand.fpIndirect base.offset (wordOffset 0 field))
      else refuse (.fieldOutOfRange object field) : LowerM Operand) t = .ok operand s' →
      wordOffset 0 field ≤ operandMax ∧
        operand = .fpIndirect base.offset (wordOffset 0 field) ∧ t = s' := by
    intro t ht
    by_cases hreach : wordOffset 0 field ≤ operandMax
    · rw [if_pos hreach] at ht
      obtain ⟨rfl, rfl⟩ := pure_ok_iff.mp ht
      exact ⟨hreach, rfl, rfl⟩
    · rw [if_neg hreach] at ht
      exact absurd ht (by simp only [refuse_ok_iff, not_false_eq_true])
  cases hknown : s.objects.lookup object with
  | none =>
    simp only [hknown] at h
    obtain ⟨hreach, rfl, rfl⟩ := hend s h
    exact ⟨base, ⟨hslot, hobject.symm, by simp [hknown], hreach⟩, rfl, rfl⟩
  | some fields =>
    cases hfield : fields[field]? with
    | none => simp only [hknown, hfield, bind_ok_iff, refuse_ok_iff, false_and, exists_false] at h
    | some fieldTy =>
      simp only [hknown, hfield, bind_ok_iff, expectType_ok_iff] at h
      obtain ⟨_, _, ⟨rfl, rfl⟩, h⟩ := h
      obtain ⟨hreach, rfl, rfl⟩ := hend s h
      refine ⟨base, ⟨hslot, hobject.symm, ?_, hreach⟩, rfl, rfl⟩
      intro fields' hfields'
      rw [hknown] at hfields'
      cases hfields'
      exact hfield

/-! ## Calls -/

/-- Where the caller keeps the result of a function: nowhere, in the word of the destination, or in a
new word that nothing else uses. -/
inductive CallResult (env : Env) (callFrame : Int) (s : State) :
    Option Ty → Option ValueId → List Line → State → Prop where
  | none : CallResult env callFrame s none none [] s
  | kept {ty : Ty} {dst : ValueId} {slot : Slot} (dst_slot : env.slots.lookup dst = some slot) :
      CallResult env callFrame s (some ty) (some dst) [resultLine slot.offset callFrame] s
  | dropped {ty : Ty} :
      CallResult env callFrame s (some ty) none [resultLine s.frame.size callFrame]
        { s with frame := ⟨s.frame.words ++ [ty.isPointer]⟩ }

theorem callResult_ok {env : Env} {s s' : State} {callee : String} {result : Option Ty}
    {dst : Option ValueId} {callFrame : Int} {lines : List Line}
    (h : callResult env callee result dst callFrame s = .ok lines s') :
    CallResult env callFrame s result dst lines s' := by
  unfold callResult at h
  cases result with
  | none =>
    cases dst with
    | none =>
      obtain ⟨rfl, rfl⟩ := pure_ok_iff.mp h
      exact .none
    | some dst => exact (refuse_ok_iff.mp h).elim
  | some ty =>
    cases dst with
    | none =>
      simp only [bind_ok_iff, allocate_ok_iff, pure_ok_iff] at h
      obtain ⟨_, _, ⟨-, rfl, rfl⟩, rfl, rfl⟩ := h
      exact .dropped
    | some dst =>
      simp only [bind_ok_iff, slotOf_ok_iff, pure_ok_iff] at h
      obtain ⟨slot, _, ⟨hslot, rfl⟩, rfl, rfl⟩ := h
      exact .kept hslot

theorem checkArguments_ok {s s' : State} {callee : String} {index : Nat} {slots : List Slot}
    {tys : List Ty} {u : Unit} (h : checkArguments callee index slots tys s = .ok u s') :
    (∀ (k : Nat) (slot : Slot) (ty : Ty), slots[k]? = some slot → tys[k]? = some ty →
      ty = slot.ty) ∧ s = s' := by
  induction slots generalizing index tys with
  | nil =>
    simp only [checkArguments, pure_ok_iff] at h
    exact ⟨by simp, h.2⟩
  | cons slot slots ih =>
    cases tys with
    | nil =>
      simp only [checkArguments, pure_ok_iff] at h
      exact ⟨by simp, h.2⟩
    | cons ty tys =>
      simp only [checkArguments, bind_ok_iff, expectType_ok_iff] at h
      obtain ⟨_, _, ⟨hty, rfl⟩, hrest⟩ := h
      obtain ⟨hslots, rfl⟩ := ih hrest
      refine ⟨?_, rfl⟩
      intro k slot' ty' hslot' hty'
      cases k with
      | zero =>
        simp only [List.getElem?_cons_zero, Option.some.injEq] at hslot' hty'
        rw [← hslot', ← hty', hty]
      | succ k => exact hslots k slot' ty' hslot' hty'

/-- The line that creates the frame of a system function: a descriptor of its own for each call of a
function that takes any number of arguments, or else the frame that the function comes with. -/
inductive NativeFrame (native : SysFunction) (index : Nat) (slots : List Slot) (callFrame : Int)
    (s : State) : Line → State → Prop where
  | variadic {d : TypeDescriptor} (open_ended : native.parameterCount? = none)
      (described : describe s.callSites.length (wordOffset headerBytes slots.length) headerBytes
        (slots.map (·.ty.isPointer)) = .ok d)
      (numbered : d.id = s.callSites.length) :
      NativeFrame native index slots callFrame s
        ⟨.binary .frame (.imm s.callSites.length) (.fp callFrame), .settled⟩
        { s with callSites := s.callSites ++ [d] }
  | fixed (count : native.parameterCount? = some slots.length)
      (pointers : ∀ k slot, slots[k]? = some slot →
        native.parameterIsPointer k = .ok slot.ty.isPointer) :
      NativeFrame native index slots callFrame s
        ⟨.ternary .mframe (.mp sysOffset) (.imm index) (.fp callFrame), .settled⟩ s

theorem checkNativeArguments_ok {native : SysFunction} {s s' : State} {index : Nat}
    {slots : List Slot} {u : Unit}
    (h : checkNativeArguments native index slots s = .ok u s') :
    (∀ k slot, slots[k]? = some slot →
      native.parameterIsPointer (index + k) = .ok slot.ty.isPointer) ∧ s = s' := by
  induction slots generalizing index with
  | nil =>
    simp only [checkNativeArguments, pure_ok_iff] at h
    exact ⟨by simp, h.2⟩
  | cons slot slots ih =>
    simp only [checkNativeArguments, bind_ok_iff, orFault_ok_iff] at h
    obtain ⟨pointer, _, ⟨hpointer, rfl⟩, h⟩ := h
    by_cases hsame : pointer = slot.ty.isPointer
    · rw [if_neg (not_not_intro hsame)] at h
      obtain ⟨hslots, rfl⟩ := ih h
      refine ⟨?_, rfl⟩
      intro k slot' hslot'
      cases k with
      | zero =>
        simp only [List.getElem?_cons_zero, Option.some.injEq] at hslot'
        rw [← hslot', ← hsame]; exact hpointer
      | succ k =>
        have hindex : index + (k + 1) = index + 1 + k := by omega
        rw [hindex]; exact hslots k slot' hslot'
    · rw [if_pos hsame] at h
      simp only [bind_ok_iff, refuse_ok_iff, false_and, exists_false] at h

theorem nativeFrame_ok {native : SysFunction} {index : Nat} {slots : List Slot} {callFrame : Int}
    {s s' : State} {line : Line} (h : nativeFrame native index slots callFrame s = .ok line s') :
    NativeFrame native index slots callFrame s line s' := by
  unfold nativeFrame at h
  cases hcount : native.parameterCount? with
  | none =>
    simp only [hcount, bind_ok_iff, orFault_ok_iff, get_ok_iff, addCallSite_ok_iff, pure_ok_iff,
      except_bind_ok_iff, checkedMul_ok_iff, checkedAdd_ok_iff] at h
    obtain ⟨size, _, ⟨⟨_, ⟨-, rfl⟩, -, rfl⟩, rfl⟩, _, _, ⟨rfl, rfl⟩, d, _, ⟨hd, rfl⟩, _, _,
      ⟨hid, rfl, rfl⟩, rfl, rfl⟩ := h
    have hsize : headerBytes + (slots.length : Int) * wordBytes
        = wordOffset headerBytes slots.length := by
      unfold wordOffset; rw [Int.mul_comm]
    rw [hsize] at hd
    rw [hid]
    exact .variadic hcount hd hid
  | some expected =>
    simp only [hcount] at h
    by_cases hexpected : expected = slots.length
    · rw [if_neg (not_not_intro hexpected)] at h
      simp only [bind_ok_iff, pure_ok_iff] at h
      obtain ⟨_, _, hcheck, rfl, rfl⟩ := h
      obtain ⟨hpointers, rfl⟩ := checkNativeArguments_ok hcheck
      simp only [Nat.zero_add] at hpointers
      exact .fixed (hexpected ▸ hcount) hpointers
    · rw [if_pos hexpected] at h
      simp only [bind_ok_iff, refuse_ok_iff, false_and, exists_false] at h

/-- The words a caller reserves for what a system function returns, if the program drops it. -/
def SysFunction.droppedWords (native : SysFunction) : List Bool :=
  if native.returns = [] then [false] else native.returns.map Ty.isPointer

/-- Where a system function stores what it returns. -/
inductive NativeResult (env : Env) (native : SysFunction) (s : State) :
    Option ValueId → Int → State → Prop where
  | kept {dst : ValueId} {slot : Slot} (single : native.result?.isSome)
      (dst_slot : env.slots.lookup dst = some slot) :
      NativeResult env native s (some dst) slot.offset s
  | dropped :
      NativeResult env native s none s.frame.size
        { s with frame := ⟨s.frame.words ++ SysFunction.droppedWords native⟩ }

theorem nativeResult_ok {env : Env} {native : SysFunction} {dst : Option ValueId} {s s' : State}
    {offset : Int} (h : nativeResult env native dst s = .ok offset s') :
    NativeResult env native s dst offset s' := by
  unfold nativeResult at h
  cases dst with
  | some dst =>
    by_cases hnone : native.result?.isNone
    · simp only [hnone, if_true, bind_ok_iff, refuse_ok_iff, false_and, exists_false] at h
    · simp only [hnone] at h
      simp only [Bool.false_eq_true, if_false, bind_ok_iff, slotOf_ok_iff, pure_ok_iff] at h
      obtain ⟨slot, _, ⟨hslot, rfl⟩, rfl, rfl⟩ := h
      exact .kept (Option.isSome_iff_ne_none.mpr (by simpa using hnone)) hslot
  | none =>
    obtain ⟨offsets, t, halloc, h⟩ := bind_ok_iff.mp h
    obtain ⟨rfl, rfl⟩ := allocateAll_ok halloc
    cases hreturns : native.returns with
    | nil =>
      simp only [hreturns, List.map_nil, List.length_nil, Frame.nextOffsets, List.range_zero] at h
      obtain ⟨-, rfl, rfl⟩ := allocate_ok_iff.mp h
      have hdropped : NativeResult env native s none s.frame.size
          { s with frame := ⟨s.frame.words ++ SysFunction.droppedWords native⟩ } := .dropped
      simpa [SysFunction.droppedWords, hreturns] using hdropped
    | cons ty tys =>
      rw [hreturns, List.map_cons, List.length_cons, Frame.nextOffsets_succ _ ty.isPointer] at h
      obtain ⟨rfl, rfl⟩ := pure_ok_iff.mp h
      have hdropped : NativeResult env native s none s.frame.size
          { s with frame := ⟨s.frame.words ++ SysFunction.droppedWords native⟩ } := .dropped
      simpa [SysFunction.droppedWords, hreturns] using hdropped

/-! ## Instructions -/

/-- The cell of module data that holds a constant, if it needs one: integers do only when they are too
large for an operand. -/
def Ssa.Constant.cell? : Constant → Option Cell
  | .int n => if Encodable n.toInt then none else some (.long n)
  | .real r => some (.real r)
  | .bool _ => none
  | .string s => some (.string s)

/-- The instruction that computes an operation of the program with the machine's operation `opcode`.
The machine computes `destination = middle op source`. -/
def mathInstruction (op : MathOp) (opcode : Opcode) (lhs rhs dst : Slot) : Instruction :=
  if op.isCommutative ∧ opcode ≠ .addc then .ternary opcode lhs.operand rhs.operand dst.operand
  else .ternary opcode rhs.operand lhs.operand dst.operand

/-- What lowering an instruction of the block `source` can do: the instruction, the lines written for
it, and the state afterwards. -/
inductive Emits (env : Env) (source : BlockId) (s : State) : Instr → List Line → State → Prop where
  | constNear {dst : ValueId} {n : Int64} {slot : Slot} (near : Encodable n.toInt)
      (dst_slot : env.slots.lookup dst = some slot) :
      Emits env source s (.const dst (.int n)) [moveLine .int (.imm n.toInt) slot.operand] s
  | constBool {dst : ValueId} {b : Bool} {slot : Slot}
      (dst_slot : env.slots.lookup dst = some slot) :
      Emits env source s (.const dst (.bool b))
        [moveLine .bool (.imm (if b then 1 else 0)) slot.operand] s
  | constCell {dst : ValueId} {value : Constant} {cell : Cell} {slot : Slot} {offset : Int}
      {context : Context} (needs_cell : value.cell? = some cell)
      (dst_slot : env.slots.lookup dst = some slot)
      (interned : Context.intern cell s.context = .ok offset context) :
      Emits env source s (.const dst value) [moveLine value.ty (.mp offset) slot.operand]
        { s with context }
  | math {dst lhs rhs : ValueId} {op : MathOp} {l r d : Slot} {opcode : Opcode}
      (lhs_slot : env.slots.lookup lhs = some l) (rhs_slot : env.slots.lookup rhs = some r)
      (dst_slot : env.slots.lookup dst = some d) (same_type : l.ty = r.ty)
      (selected : mathOpcode? op l.ty = some opcode) :
      Emits env source s (.math dst op lhs rhs) [⟨mathInstruction op opcode l r d, .settled⟩] s
  | compare {dst lhs rhs : ValueId} {op : Comparison} {l r d : Slot} {opcode : Opcode}
      (lhs_slot : env.slots.lookup lhs = some l) (rhs_slot : env.slots.lookup rhs = some r)
      (dst_slot : env.slots.lookup dst = some d) (same_type : l.ty = r.ty)
      (selected : compareOpcode? op l.ty = some opcode) :
      Emits env source s (.compare dst op lhs rhs)
        [moveLine .bool (.imm 1) d.operand,
          ⟨.ternary opcode l.operand r.operand (.imm 0), .ahead 2⟩,
          moveLine .bool (.imm 0) d.operand] s
  | phi {dst : ValueId} {ty : Ty} {incoming : List PhiEdge} :
      Emits env source s (.phi dst ty incoming) [] s
  | loadGlobal {dst : ValueId} {name : String} {global : GlobalSlot} {slot : Slot}
      (found : s.context.global? name = some global)
      (dst_slot : env.slots.lookup dst = some slot) :
      Emits env source s (.loadGlobal dst name)
        [moveLine global.ty (.mp global.offset) slot.operand] s
  | storeGlobal {value : ValueId} {name : String} {global : GlobalSlot} {slot : Slot}
      (found : s.context.global? name = some global)
      (value_slot : env.slots.lookup value = some slot) (same_type : global.ty = slot.ty) :
      Emits env source s (.storeGlobal name value)
        [moveLine global.ty slot.operand (.mp global.offset)] s
  | new {dst : ValueId} {fields : List Ty} {slot : Slot} {d : TypeDescriptor}
      (described : describe s.callSites.length (max (fields.length * wordBytes) wordBytes) 0
        (fields.map Ty.isPointer) = .ok d)
      (numbered : d.id = s.callSites.length) (dst_slot : env.slots.lookup dst = some slot) :
      Emits env source s (.new dst fields)
        [⟨.binary .new (.imm s.callSites.length) slot.operand, .settled⟩]
        { s with callSites := s.callSites ++ [d], objects := (dst, fields) :: s.objects }
  | loadField {dst object : ValueId} {ty : Ty} {field : Nat} {base slot : Slot}
      (access : FieldAccess env s object field ty base)
      (dst_slot : env.slots.lookup dst = some slot) :
      Emits env source s (.loadField dst ty object field)
        [moveLine ty (.fpIndirect base.offset (wordOffset 0 field)) slot.operand] s
  | storeField {object value : ValueId} {field : Nat} {base slot : Slot}
      (value_slot : env.slots.lookup value = some slot)
      (access : FieldAccess env s object field slot.ty base) :
      Emits env source s (.storeField object field value)
        [moveLine slot.ty slot.operand (.fpIndirect base.offset (wordOffset 0 field))] s
  | call {dst : Option ValueId} {callee : String} {arguments : List ValueId} {target : Function}
      {slots : List Slot} {result : List Line} {s' : State}
      (found : s.context.program.function? callee = some target)
      (defined : target.isDeclaration = false)
      (count : target.parameters.length = arguments.length)
      (argument_slots : List.Forall₂ (fun v slot => env.slots.lookup v = some slot) arguments slots)
      (same_types : ∀ (k : Nat) (slot : Slot) (ty : Ty), slots[k]? = some slot →
        target.parameters[k]? = some ty → ty = slot.ty)
      (result_placed : CallResult env s.frame.size
        { s with frame := ⟨s.frame.words ++ [false]⟩ } target.result dst result s') :
      Emits env source s (.call dst callee arguments)
        (⟨.binary .frame (.imm 0) (.fp s.frame.size), .callee .frameId callee⟩
          :: argumentLines s.frame.size slots ++ result
          ++ [⟨.binary .call (.fp s.frame.size) (.imm 0), .callee .callAddress callee⟩]) s'
  | callNative {dst : Option ValueId} {name : String} {arguments : List ValueId}
      {native : SysFunction} {slots : List Slot} {index : Nat} {context : Context} {frame : Line}
      {result : Int} {t s' : State} (found : SysFunction.lookup? name = some native)
      (argument_slots : List.Forall₂ (fun v slot => env.slots.lookup v = some slot) arguments slots)
      (imported : Context.nativeImport native s.context = .ok index context)
      (framed : NativeFrame native index slots s.frame.size
        { s with context, frame := ⟨s.frame.words ++ [false]⟩ } frame t)
      (result_placed : NativeResult env native t dst result s') :
      Emits env source s (.callNative dst name arguments)
        (frame :: argumentLines s.frame.size slots
          ++ [resultLine result s.frame.size,
            ⟨.ternary .mcall (.fp s.frame.size) (.imm index) (.mp sysOffset), .settled⟩]) s'
  | jump {target : BlockId} {block : Ssa.Block} {moves : List Move} {lines : List Line} {s' : State}
      (target_block : env.function.block? target = some block)
      (edge : EdgeMoves env source block.instructions moves) (moved : Moved moves s lines s') :
      Emits env source s (.jump target) (lines ++ [jumpLine target]) s'
  | branchPlain {condition : ValueId} {thenBlock elseBlock : BlockId} {slot : Slot}
      {yes no : Ssa.Block} (condition_slot : env.slots.lookup condition = some slot)
      (is_bool : slot.ty = .bool) (then_block : env.function.block? thenBlock = some yes)
      (else_block : env.function.block? elseBlock = some no)
      (then_edge : EdgeMoves env source yes.instructions [])
      (else_edge : EdgeMoves env source no.instructions []) :
      Emits env source s (.branch condition thenBlock elseBlock)
        [branchLine slot (.block thenBlock), jumpLine elseBlock] s
  | branchMoving {condition : ValueId} {thenBlock elseBlock : BlockId} {slot : Slot}
      {yes no : Ssa.Block} {thenMoves elseMoves : List Move} {thenLines elseLines : List Line}
      {t s' : State} (condition_slot : env.slots.lookup condition = some slot)
      (is_bool : slot.ty = .bool) (then_block : env.function.block? thenBlock = some yes)
      (else_block : env.function.block? elseBlock = some no)
      (then_edge : EdgeMoves env source yes.instructions thenMoves)
      (else_edge : EdgeMoves env source no.instructions elseMoves)
      (else_moved : Moved elseMoves s elseLines t) (then_moved : Moved thenMoves t thenLines s') :
      Emits env source s (.branch condition thenBlock elseBlock)
        (branchLine slot (.ahead (elseLines.length + 2)) :: elseLines ++ [jumpLine elseBlock]
          ++ thenLines ++ [jumpLine thenBlock]) s'
  | retValue {value : ValueId} {ty : Ty} {slot : Slot} (result : env.function.result = some ty)
      (value_slot : env.slots.lookup value = some slot) (same_type : ty = slot.ty) :
      Emits env source s (.ret (some value))
        [moveLine ty slot.operand (.fpIndirect returnSlot 0), ⟨.plain .ret, .settled⟩] s
  | retNone (result : env.function.result = none) :
      Emits env source s (.ret none) [⟨.plain .ret, .settled⟩] s

section Instructions

variable {env : Env} {source : BlockId} {s s' : State} {lines : List Line}

theorem lowerConst_emits {dst : ValueId} {value : Constant}
    (h : lowerConst env dst value s = .ok lines s') : Emits env source s (.const dst value) lines s' := by
  simp only [lowerConst, bind_ok_iff, slotOf_ok_iff] at h
  obtain ⟨slot, _, ⟨hslot, rfl⟩, h⟩ := h
  cases value with
  | int n =>
    by_cases hnear : Encodable n.toInt
    · simp only [intOperand, if_pos hnear, bind_ok_iff, pure_ok_iff] at h
      obtain ⟨_, _, ⟨rfl, rfl⟩, rfl, rfl⟩ := h
      exact .constNear hnear hslot
    · simp only [intOperand, if_neg hnear, bind_ok_iff, pure_ok_iff, onContext_ok_iff] at h
      obtain ⟨_, _, ⟨offset, _, ⟨c, hc, rfl⟩, rfl, rfl⟩, rfl, rfl⟩ := h
      exact .constCell (if_neg hnear) hslot hc
  | real r =>
    simp only [bind_ok_iff, pure_ok_iff, onContext_ok_iff] at h
    obtain ⟨offset, _, ⟨c, hc, rfl⟩, rfl, rfl⟩ := h
    exact .constCell rfl hslot hc
  | bool b =>
    obtain ⟨rfl, rfl⟩ := pure_ok_iff.mp h
    exact .constBool hslot
  | string text =>
    simp only [bind_ok_iff, pure_ok_iff, onContext_ok_iff] at h
    obtain ⟨offset, _, ⟨c, hc, rfl⟩, rfl, rfl⟩ := h
    exact .constCell rfl hslot hc

theorem lowerMath_emits {dst lhs rhs : ValueId} {op : MathOp}
    (h : lowerMath env dst op lhs rhs s = .ok lines s') :
    Emits env source s (.math dst op lhs rhs) lines s' := by
  simp only [lowerMath, bind_ok_iff, slotOf_ok_iff, expectType_ok_iff] at h
  obtain ⟨l, _, ⟨hl, rfl⟩, r, _, ⟨hr, rfl⟩, d, _, ⟨hd, rfl⟩, _, _, ⟨hty, rfl⟩, h⟩ := h
  cases hop : mathOpcode? op l.ty with
  | none => simp only [hop, refuse_ok_iff] at h
  | some opcode =>
    simp only [hop, pure_ok_iff] at h
    obtain ⟨rfl, rfl⟩ := h
    exact .math hl hr hd hty hop

theorem lowerCompare_emits {dst lhs rhs : ValueId} {op : Comparison}
    (h : lowerCompare env dst op lhs rhs s = .ok lines s') :
    Emits env source s (.compare dst op lhs rhs) lines s' := by
  simp only [lowerCompare, bind_ok_iff, slotOf_ok_iff, expectType_ok_iff] at h
  obtain ⟨l, _, ⟨hl, rfl⟩, r, _, ⟨hr, rfl⟩, d, _, ⟨hd, rfl⟩, _, _, ⟨hty, rfl⟩, h⟩ := h
  cases hop : compareOpcode? op l.ty with
  | none => simp only [hop, refuse_ok_iff] at h
  | some opcode =>
    simp only [hop, pure_ok_iff] at h
    obtain ⟨rfl, rfl⟩ := h
    exact .compare hl hr hd hty hop

theorem lowerLoadGlobal_emits {dst : ValueId} {name : String}
    (h : lowerLoadGlobal env dst name s = .ok lines s') :
    Emits env source s (.loadGlobal dst name) lines s' := by
  simp only [lowerLoadGlobal, bind_ok_iff, globalOf_ok_iff, slotOf_ok_iff, pure_ok_iff] at h
  obtain ⟨global, _, ⟨hglobal, rfl⟩, slot, _, ⟨hslot, rfl⟩, rfl, rfl⟩ := h
  exact .loadGlobal hglobal hslot

theorem lowerStoreGlobal_emits {value : ValueId} {name : String}
    (h : lowerStoreGlobal env name value s = .ok lines s') :
    Emits env source s (.storeGlobal name value) lines s' := by
  simp only [lowerStoreGlobal, bind_ok_iff, globalOf_ok_iff, slotOf_ok_iff, expectType_ok_iff,
    pure_ok_iff] at h
  obtain ⟨global, _, ⟨hglobal, rfl⟩, slot, _, ⟨hslot, rfl⟩, _, _, ⟨hty, rfl⟩, rfl, rfl⟩ := h
  exact .storeGlobal hglobal hslot hty

theorem lowerNew_emits {dst : ValueId} {fields : List Ty}
    (h : lowerNew env dst fields s = .ok lines s') :
    Emits env source s (.new dst fields) lines s' := by
  simp only [lowerNew, bind_ok_iff, orFault_ok_iff, checkedMul_ok_iff, get_ok_iff,
    addCallSite_ok_iff, slotOf_ok_iff, modify_ok_iff, pure_ok_iff] at h
  obtain ⟨_, _, ⟨⟨-, rfl⟩, rfl⟩, _, _, ⟨rfl, rfl⟩, d, _, ⟨hd, rfl⟩, _, _, ⟨hid, rfl, rfl⟩, slot, _,
    ⟨hslot, rfl⟩, _, _, rfl, rfl, rfl⟩ := h
  rw [hid]
  exact .new hd hid hslot

theorem lowerLoadField_emits {dst object : ValueId} {ty : Ty} {field : Nat}
    (h : lowerLoadField env dst ty object field s = .ok lines s') :
    Emits env source s (.loadField dst ty object field) lines s' := by
  simp only [lowerLoadField, bind_ok_iff, slotOf_ok_iff, pure_ok_iff] at h
  obtain ⟨operand, _, hoperand, slot, _, ⟨hslot, rfl⟩, rfl, rfl⟩ := h
  obtain ⟨base, haccess, rfl, rfl⟩ := fieldOperand_ok hoperand
  exact .loadField haccess hslot

theorem lowerStoreField_emits {object value : ValueId} {field : Nat}
    (h : lowerStoreField env object field value s = .ok lines s') :
    Emits env source s (.storeField object field value) lines s' := by
  simp only [lowerStoreField, bind_ok_iff, slotOf_ok_iff, pure_ok_iff] at h
  obtain ⟨slot, _, ⟨hslot, rfl⟩, operand, _, hoperand, rfl, rfl⟩ := h
  obtain ⟨base, haccess, rfl, rfl⟩ := fieldOperand_ok hoperand
  exact .storeField hslot haccess

theorem lowerCall_emits {dst : Option ValueId} {callee : String} {arguments : List ValueId}
    (h : lowerCall env dst callee arguments s = .ok lines s') :
    Emits env source s (.call dst callee arguments) lines s' := by
  simp only [lowerCall, bind_ok_iff, get_ok_iff] at h
  obtain ⟨_, _, ⟨rfl, rfl⟩, h⟩ := h
  cases hfound : s.context.program.function? callee with
  | none => simp only [hfound, refuse_ok_iff] at h
  | some target =>
    simp only [hfound] at h
    by_cases hdecl : target.isDeclaration = true
    · simp only [hdecl, if_true, bind_ok_iff, refuse_ok_iff, false_and, exists_false] at h
    · rw [if_neg hdecl] at h
      by_cases hcount : target.parameters.length = arguments.length
      · rw [if_neg (not_not_intro hcount)] at h
        simp only [bind_ok_iff, allocate_ok_iff, pure_ok_iff] at h
        obtain ⟨slots, _, hslots, _, _, hcheck, _, _, ⟨-, rfl, rfl⟩, result, _, hresult, rfl, rfl⟩ := h
        obtain ⟨hfilled, rfl⟩ := slotsOf_ok hslots
        obtain ⟨htypes, rfl⟩ := checkArguments_ok hcheck
        exact .call hfound (by simpa using hdecl) hcount hfilled htypes (callResult_ok hresult)
      · rw [if_pos hcount] at h
        simp only [bind_ok_iff, refuse_ok_iff, false_and, exists_false] at h

theorem lowerNativeCall_emits {dst : Option ValueId} {name : String} {arguments : List ValueId}
    (h : lowerNativeCall env dst name arguments s = .ok lines s') :
    Emits env source s (.callNative dst name arguments) lines s' := by
  unfold lowerNativeCall at h
  cases hfound : SysFunction.lookup? name with
  | none => simp only [hfound, refuse_ok_iff] at h
  | some native =>
    simp only [hfound, bind_ok_iff, onContext_ok_iff, allocate_ok_iff, pure_ok_iff] at h
    obtain ⟨slots, _, hslots, index, _, ⟨c, himport, rfl⟩, _, _, ⟨-, rfl, rfl⟩, frame, t, hframe,
      result, _, hresult, rfl, rfl⟩ := h
    obtain ⟨hfilled, rfl⟩ := slotsOf_ok hslots
    exact .callNative hfound hfilled himport (nativeFrame_ok hframe) (nativeResult_ok hresult)

theorem lowerJump_emits {target : BlockId} (h : lowerJump env source target s = .ok lines s') :
    Emits env source s (.jump target) lines s' := by
  simp only [lowerJump, bind_ok_iff, pure_ok_iff] at h
  obtain ⟨moves, _, hedge, lines, _, hmoved, rfl, rfl⟩ := h
  obtain ⟨⟨block, hblock, hmoves⟩, rfl⟩ := edgeMoves_ok hedge
  exact .jump hblock hmoves (moveAll_ok hmoved)

theorem lowerBranch_emits {condition : ValueId} {thenBlock elseBlock : BlockId}
    (h : lowerBranch env source condition thenBlock elseBlock s = .ok lines s') :
    Emits env source s (.branch condition thenBlock elseBlock) lines s' := by
  simp only [lowerBranch, bind_ok_iff, slotOf_ok_iff, expectType_ok_iff] at h
  obtain ⟨slot, _, ⟨hslot, rfl⟩, _, _, ⟨hbool, rfl⟩, thenMoves, _, hthenEdge, elseMoves, _, helseEdge,
    h⟩ := h
  obtain ⟨⟨yes, hyes, hthen⟩, rfl⟩ := edgeMoves_ok hthenEdge
  obtain ⟨⟨no, hno, helse⟩, rfl⟩ := edgeMoves_ok helseEdge
  by_cases hplain : thenMoves = [] ∧ elseMoves = []
  · rw [if_pos hplain] at h
    obtain ⟨rfl, rfl⟩ := pure_ok_iff.mp h
    obtain ⟨rfl, rfl⟩ := hplain
    exact .branchPlain hslot hbool.symm hyes hno hthen helse
  · rw [if_neg hplain] at h
    simp only [bind_ok_iff, pure_ok_iff] at h
    obtain ⟨elseLines, t, helseMoved, thenLines, _, hthenMoved, rfl, rfl⟩ := h
    exact .branchMoving hslot hbool.symm hyes hno hthen helse (moveAll_ok helseMoved)
      (moveAll_ok hthenMoved)

theorem lowerReturn_emits {value : Option ValueId} (h : lowerReturn env value s = .ok lines s') :
    Emits env source s (.ret value) lines s' := by
  unfold lowerReturn at h
  cases value with
  | none =>
    cases hresult : env.function.result with
    | none =>
      simp only [hresult, pure_ok_iff] at h
      obtain ⟨rfl, rfl⟩ := h
      exact .retNone hresult
    | some ty => simp only [hresult, refuse_ok_iff] at h
  | some value =>
    cases hresult : env.function.result with
    | none => simp only [hresult, refuse_ok_iff] at h
    | some ty =>
      simp only [hresult, bind_ok_iff, slotOf_ok_iff, expectType_ok_iff, pure_ok_iff] at h
      obtain ⟨slot, _, ⟨hslot, rfl⟩, _, _, ⟨hty, rfl⟩, rfl, rfl⟩ := h
      exact .retValue hresult hslot hty

/-- **Lowering an instruction does one of the things `Emits` lists.** -/
theorem lowerInstr_emits {i : Instr} (h : lowerInstr env source i s = .ok lines s') :
    Emits env source s i lines s' := by
  cases i with
  | const dst value => exact lowerConst_emits h
  | math dst op lhs rhs => exact lowerMath_emits h
  | compare dst op lhs rhs => exact lowerCompare_emits h
  | phi dst ty incoming =>
    obtain ⟨rfl, rfl⟩ := pure_ok_iff.mp h
    exact .phi
  | loadGlobal dst global => exact lowerLoadGlobal_emits h
  | storeGlobal global value => exact lowerStoreGlobal_emits h
  | new dst fields => exact lowerNew_emits h
  | loadField dst ty object field => exact lowerLoadField_emits h
  | storeField object field value => exact lowerStoreField_emits h
  | call dst callee arguments => exact lowerCall_emits h
  | callNative dst function arguments => exact lowerNativeCall_emits h
  | jump target => exact lowerJump_emits h
  | branch condition thenBlock elseBlock => exact lowerBranch_emits h
  | ret value => exact lowerReturn_emits h

end Instructions

end DisBackend
