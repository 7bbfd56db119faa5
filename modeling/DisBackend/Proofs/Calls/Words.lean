import DisBackend.Proofs.Collector.Calls
import DisBackend.Proofs.Lowering.Sections

/-!
# `Proofs.Calls.Words` — which instructions name which words of a frame

The frame of a function has a word for each value, and more words that are handed out while an instruction
is lowered: for the frame of a call, for a result that is dropped, and for what is moved on the way to a
block. Code names the words of the values that its instruction deals with, the words that were handed out
for the instruction, and the word in which the caller says where the result goes. So the words that were
handed out for one instruction are used for nothing else.

## Contents

* `Instruction.Names` — the words that an instruction names;
* `Function.valuesAt` — the values that an instruction deals with;
* `State.newWords`, `WordUse`, `Emits.wordUse` — the words that the lines of an instruction name;
* `Trace.wordUse` — the words that the code of an instruction names;
* `Trace.newWords_unique`, `Trace.slot_not_new`, `Trace.newWords_named`, `Lowering.slot_named` — what a word
  is for.
-/

namespace DisBackend

open Ssa (BlockId Function Instr PhiEdge Ty ValueId)

/-! ## Words that are named -/

/-- The word of the frame that an operand names: the one it stands for, or the one that holds the pointer
it goes through. -/
def Operand.frameWord? : Operand → Option Int
  | .fp offset => some offset
  | .fpIndirect base _ => some base
  | _ => none

/-- The instruction names the word of the frame at `offset`. -/
def Instruction.Names (i : Instruction) (offset : Int) : Prop :=
  ∃ o ∈ i.operands, o.frameWord? = some offset

section Names

variable {opcode : Opcode} {src mid dst : Operand} {offset : Int}

@[simp] theorem Operand.frameWord?_imm (value : Int) : (Operand.imm value).frameWord? = none := rfl

@[simp] theorem Operand.frameWord?_mp (offset : Int) : (Operand.mp offset).frameWord? = none := rfl

@[simp] theorem Operand.frameWord?_fp (offset : Int) : (Operand.fp offset).frameWord? = some offset := rfl

@[simp] theorem Operand.frameWord?_fpIndirect (base offset : Int) :
    (Operand.fpIndirect base offset).frameWord? = some base := rfl

@[simp] theorem Slot.frameWord?_operand (slot : Slot) : slot.operand.frameWord? = some slot.offset := rfl

@[simp] theorem names_plain : ¬ (Instruction.plain opcode).Names offset := by
  simp [Instruction.Names, Instruction.operands, Instruction.plain, Operand.frameWord?]

@[simp] theorem names_unary : (Instruction.unary opcode dst).Names offset ↔ dst.frameWord? = some offset := by
  simp [Instruction.Names, Instruction.operands, Instruction.unary, Operand.frameWord?]

@[simp] theorem names_binary : (Instruction.binary opcode src dst).Names offset ↔
    src.frameWord? = some offset ∨ dst.frameWord? = some offset := by
  simp [Instruction.Names, Instruction.operands, Instruction.binary, Operand.frameWord?]

@[simp] theorem names_ternary : (Instruction.ternary opcode src mid dst).Names offset ↔
    src.frameWord? = some offset ∨ mid.frameWord? = some offset ∨ dst.frameWord? = some offset := by
  simp [Instruction.Names, Instruction.operands, Instruction.ternary]

@[simp] theorem names_moveLine {ty : Ty} : (moveLine ty src dst).instruction.Names offset ↔
    src.frameWord? = some offset ∨ dst.frameWord? = some offset :=
  names_binary

@[simp] theorem names_jumpLine {target : BlockId} : ¬ (jumpLine target).instruction.Names offset := by
  simp [jumpLine]

@[simp] theorem names_branchLine {condition : Slot} {fixup : Fixup} :
    (branchLine condition fixup).instruction.Names offset ↔ condition.offset = offset := by
  simp [branchLine]

@[simp] theorem names_resultLine {result callFrame : Int} :
    (resultLine result callFrame).instruction.Names offset ↔ result = offset ∨ callFrame = offset := by
  simp [resultLine]

theorem names_mathInstruction {op : Ssa.MathOp} {lhs rhs dst : Slot}
    (h : (mathInstruction op opcode lhs rhs dst).Names offset) :
    lhs.offset = offset ∨ rhs.offset = offset ∨ dst.offset = offset := by
  obtain ⟨o, ho, hword⟩ := h
  rcases mem_operands_mathInstruction ho with rfl | rfl | rfl
  · exact .inl (Option.some.inj hword)
  · exact .inr (.inl (Option.some.inj hword))
  · exact .inr (.inr (Option.some.inj hword))

theorem names_argumentLines {callFrame : Int} {slots : List Slot} {line : Line}
    (hline : line ∈ argumentLines callFrame slots) (h : line.instruction.Names offset) :
    callFrame = offset ∨ ∃ slot ∈ slots, slot.offset = offset := by
  obtain ⟨k, hk, rfl⟩ := List.mem_mapIdx.mp hline
  simp only [names_moveLine, Slot.frameWord?_operand, Operand.frameWord?_fpIndirect,
    Option.some.injEq] at h
  rcases h with hslot | hframe
  · exact .inr ⟨_, List.getElem_mem hk, hslot⟩
  · exact .inl hframe

/-- Numbers do not matter for the words that are named. -/
theorem Operand.Similar.frameWord? {o o' : Operand} (h : o.Similar o') :
    o'.frameWord? = o.frameWord? := by
  rcases h with rfl | ⟨v, v', rfl, rfl⟩
  · rfl
  · rfl

theorem Instruction.Similar.names {i i' : Instruction} (h : i.Similar i') (hnames : i'.Names offset) :
    i.Names offset := by
  simp only [Names, operands, List.mem_cons, List.not_mem_nil, or_false, exists_eq_or_imp,
    exists_eq_left] at hnames ⊢
  rw [h.src.frameWord?, h.mid.frameWord?, h.dst.frameWord?] at hnames
  exact hnames

end Names

/-! ## Values that an instruction deals with -/

namespace Ssa

/-- The phis at the start of a block, and the values that they take when control comes from `source`. -/
def Function.edgeValues (f : Function) (source target : BlockId) : List ValueId :=
  ((f.block? target).elim [] Block.instructions).flatMap fun
    | .phi dst _ incoming => dst :: (incoming.filter (·.block = source)).map PhiEdge.value
    | _ => []

/-- The values that an instruction of the block `source` reads or gives a value. The phis of a block get
their values on the way there. -/
def Function.valuesAt (f : Function) (source : BlockId) : Instr → List ValueId
  | .const dst _ | .loadGlobal dst _ | .new dst _ => [dst]
  | .math dst _ lhs rhs | .compare dst _ lhs rhs => [dst, lhs, rhs]
  | .phi .. => []
  | .storeGlobal _ value => [value]
  | .loadField dst _ object _ => [dst, object]
  | .storeField object _ value => [object, value]
  | .call dst _ arguments | .callNative dst _ arguments => dst.toList ++ arguments
  | .jump target => f.edgeValues source target
  | .branch condition thenBlock elseBlock =>
    condition :: f.edgeValues source thenBlock ++ f.edgeValues source elseBlock
  | .ret value => value.toList

theorem Function.mem_edgeValues {f : Function} (source : BlockId) {target : BlockId} {block : Block}
    (hblock : f.block? target = some block) {dst : ValueId} {ty : Ty} {incoming : List PhiEdge}
    (hphi : .phi dst ty incoming ∈ block.instructions) :
    dst ∈ f.edgeValues source target ∧
      ∀ edge ∈ incoming, edge.block = source → edge.value ∈ f.edgeValues source target := by
  unfold edgeValues
  rw [hblock]
  refine ⟨List.mem_flatMap.mpr ⟨_, hphi, List.mem_cons_self⟩, fun edge hedge hsource => ?_⟩
  refine List.mem_flatMap.mpr ⟨_, hphi, List.mem_cons_of_mem _ (List.mem_map.mpr ⟨edge, ?_, rfl⟩)⟩
  exact List.mem_filter.mpr ⟨hedge, decide_eq_true hsource⟩

end Ssa

/-! ## What the words that lines name are for -/

/-- The words that were handed out between two states. -/
def State.newWords (s s' : State) : List Int :=
  s.frame.nextOffsets (s'.frame.words.length - s.frame.words.length)

theorem State.mem_newWords {s s' : State} {offset : Int} : offset ∈ s.newWords s' ↔
    ∃ k, s.frame.words.length ≤ k ∧ k < s'.frame.words.length ∧ offset = wordOffset headerBytes k := by
  unfold newWords Frame.nextOffsets
  rw [List.mem_map]
  constructor
  · rintro ⟨k, hk, rfl⟩
    rw [List.mem_range] at hk
    exact ⟨_, Nat.le_add_right _ k, by omega, rfl⟩
  · rintro ⟨k, hle, hlt, rfl⟩
    refine ⟨k - s.frame.words.length, List.mem_range.mpr (by omega), ?_⟩
    rw [Nat.add_sub_cancel' hle]

/-- Words that were handed out in part of the way. -/
theorem State.newWords_mono {s t t' s' : State} (hs : s.Grows t) (hs' : t'.Grows s') {offset : Int}
    (h : offset ∈ t.newWords t') : offset ∈ s.newWords s' := by
  obtain ⟨k, hle, hlt, rfl⟩ := mem_newWords.mp h
  exact mem_newWords.mpr ⟨k, Nat.le_trans hs.frame.length_le hle,
    Nat.lt_of_lt_of_le hlt hs'.frame.length_le, rfl⟩

/-- What the word at `offset` is for, in the lines of an instruction that deals with `values` and was lowered
from the state `s` to the state `s'`. -/
inductive WordUse (env : Env) (values : List ValueId) (s s' : State) (offset : Int) : Prop where
  /-- It is the word of a value. -/
  | value {v : ValueId} {slot : Slot} (mentioned : v ∈ values) (slot_found : env.slots.lookup v = some slot)
      (offset_eq : slot.offset = offset)
  /-- It was handed out for the instruction. -/
  | new (handed_out : offset ∈ s.newWords s')
  /-- It says where the caller wants the result. -/
  | result (offset_eq : returnSlot = offset)

section Emission

variable {env : Env} {source : BlockId} {values : List ValueId} {s s' t t' : State} {offset : Int}

theorem WordUse.mono (h : WordUse env values t t' offset) (hs : s.Grows t) (hs' : t'.Grows s')
    {values' : List ValueId} (hvalues : values ⊆ values') : WordUse env values' s s' offset := by
  cases h with
  | value hv hslot hoffset => exact .value (hvalues hv) hslot hoffset
  | new hnew => exact .new (State.newWords_mono hs hs' hnew)
  | result hoffset => exact .result hoffset

/-- The moves of an edge are between the words of its values. -/
theorem EdgeMoves.wordUse {target : BlockId} {block : Ssa.Block} {moves : List Move}
    (hblock : env.function.block? target = some block)
    (h : EdgeMoves env source block.instructions moves) {mv : Move} (hmv : mv ∈ moves)
    (hoffset : mv.src = offset ∨ mv.dst = offset) :
    WordUse env (env.function.edgeValues source target) s s' offset := by
  obtain ⟨dst, ty, incoming, edge, d, src, hphi, hslots, -, rfl⟩ := h.phi_of_move hmv
  obtain ⟨hdst, hincoming⟩ := Function.mem_edgeValues source hblock hphi
  have hsource : edge.block = source := by simpa using List.find?_some hslots.edge_found
  have hedge := hincoming edge (List.mem_of_find?_eq_some hslots.edge_found) hsource
  rcases hoffset with hsrc | hdstOffset
  · exact .value hedge hslots.src_slot hsrc
  · exact .value hdst hslots.dst_slot hdstOffset

theorem names_directLines {moves : List Move} {line : Line} (hline : line ∈ directLines moves)
    (h : line.instruction.Names offset) : ∃ mv ∈ moves, mv.src = offset ∨ mv.dst = offset := by
  obtain ⟨mv, hmv, rfl⟩ := List.mem_map.mp hline
  exact ⟨mv, hmv, by simpa using h⟩

/-- The lines that carry out moves name the words moved, and temporaries. -/
theorem Moved.wordUse {moves : List Move} {lines : List Line} (h : Moved moves s lines s')
    (hmoves : ∀ mv ∈ moves, mv.src = offset ∨ mv.dst = offset → WordUse env values s s' offset)
    {line : Line} (hline : line ∈ lines) (hnames : line.instruction.Names offset) :
    WordUse env values s s' offset := by
  cases h with
  | direct =>
    obtain ⟨mv, hmv, hoffset⟩ := names_directLines hline hnames
    exact hmoves mv hmv hoffset
  | through =>
    have htemporary (ht : offset ∈ s.frame.nextOffsets moves.length) :
        offset ∈ s.newWords { s with frame := ⟨s.frame.words ++ moves.map (·.ty.isPointer)⟩ } := by
      unfold State.newWords
      rw [List.length_append, List.length_map, Nat.add_sub_cancel_left]
      exact ht
    rcases List.mem_append.mp hline with hsave | hrestore
    · obtain ⟨mv, hmv, hoffset⟩ := names_directLines hsave hnames
      obtain ⟨mv₀, hmv₀, hsrc, hdst⟩ := mem_savingMoves hmv
      rcases hoffset with hoffset | rfl
      · exact hmoves mv₀ hmv₀ (.inl (hsrc ▸ hoffset))
      · exact .new (htemporary hdst)
    · obtain ⟨mv, hmv, hoffset⟩ := names_directLines hrestore hnames
      obtain ⟨mv₀, hmv₀, hdst, hsrc⟩ := mem_restoringMoves hmv
      rcases hoffset with rfl | hoffset
      · exact .new (htemporary hsrc)
      · exact hmoves mv₀ hmv₀ (.inr (hdst ▸ hoffset))

/-- The word that is handed out first. -/
theorem State.size_mem_newWords (h : s.frame.words.length < s'.frame.words.length) :
    s.frame.size ∈ s.newWords s' :=
  mem_newWords.mpr ⟨_, Nat.le_refl _, h, rfl⟩

/-- The lines that store arguments name the words of the arguments, and the one for the frame of the call. -/
theorem wordUse_argumentLines {arguments : List ValueId} {slots : List Slot}
    (hslots : List.Forall₂ (fun v slot => env.slots.lookup v = some slot) arguments slots)
    (hnew : s.frame.size ∈ s.newWords s') {line : Line} (hline : line ∈ argumentLines s.frame.size slots)
    (hnames : line.instruction.Names offset) : WordUse env arguments s s' offset := by
  rcases names_argumentLines hline hnames with rfl | ⟨slot, hslot, hoffset⟩
  · exact .new hnew
  · obtain ⟨k, hk⟩ := List.mem_iff_getElem?.mp hslot
    obtain ⟨v, hv, hlookup⟩ := forall₂_getElem? hslots.flip hk
    exact .value (List.mem_of_getElem? hv) hlookup hoffset

theorem CallResult.wordUse {callFrame : Int} {result : Option Ty} {dst : Option ValueId}
    {lines : List Line} (h : CallResult env callFrame s result dst lines s') {line : Line}
    (hline : line ∈ lines) (hnames : line.instruction.Names offset) :
    callFrame = offset ∨ WordUse env dst.toList s s' offset := by
  cases h with
  | none => cases hline
  | kept hslot =>
    obtain rfl := List.mem_singleton.mp hline
    rcases names_resultLine.mp hnames with hresult | hframe
    · exact .inr (.value List.mem_cons_self hslot hresult)
    · exact .inl hframe
  | dropped =>
    obtain rfl := List.mem_singleton.mp hline
    rcases names_resultLine.mp hnames with rfl | hframe
    · exact .inr (.new (State.size_mem_newWords (by simp)))
    · exact .inl hframe

theorem NativeResult.wordUse {native : SysFunction} {dst : Option ValueId}
    (h : NativeResult env native s dst offset s') : WordUse env dst.toList s s' offset := by
  cases h with
  | kept _ hslot => exact .value List.mem_cons_self hslot rfl
  | dropped =>
    refine .new (State.size_mem_newWords ?_)
    obtain ⟨pointer, hfirst⟩ := native.exists_droppedWords
    have hpos := (List.getElem?_eq_some_iff.mp hfirst).1
    rw [List.length_append]
    omega

/-! One lemma for each kind of instruction. -/

section Kinds

variable {lines : List Line} {line : Line} {dst : ValueId}

theorem wordUse_const {value : Ssa.Constant} (h : Emits env source s (.const dst value) lines s')
    (hline : line ∈ lines) (hnames : line.instruction.Names offset) : WordUse env [dst] s s' offset := by
  cases h with
  | constNear _ hslot | constBool hslot | constCell _ hslot =>
    obtain rfl := List.mem_singleton.mp hline
    exact .value List.mem_cons_self hslot (by simpa using hnames)

theorem wordUse_math {op : Ssa.MathOp} {lhs rhs : ValueId}
    (h : Emits env source s (.math dst op lhs rhs) lines s') (hline : line ∈ lines)
    (hnames : line.instruction.Names offset) : WordUse env [dst, lhs, rhs] s s' offset := by
  cases h with
  | math hlhs hrhs hdst =>
    obtain rfl := List.mem_singleton.mp hline
    rcases names_mathInstruction hnames with hl | hr | hd
    · exact .value (by simp) hlhs hl
    · exact .value (by simp) hrhs hr
    · exact .value (by simp) hdst hd

theorem wordUse_compare {op : Ssa.Comparison} {lhs rhs : ValueId}
    (h : Emits env source s (.compare dst op lhs rhs) lines s') (hline : line ∈ lines)
    (hnames : line.instruction.Names offset) : WordUse env [dst, lhs, rhs] s s' offset := by
  cases h with
  | compare hlhs hrhs hdst =>
    simp only [List.mem_cons, List.not_mem_nil, or_false] at hline
    rcases hline with rfl | rfl | rfl
    · exact .value (by simp) hdst (by simpa using hnames)
    · simp only [names_ternary, Slot.frameWord?_operand, Operand.frameWord?_imm, Option.some.injEq,
        reduceCtorEq, or_false] at hnames
      rcases hnames with hl | hr
      · exact .value (by simp) hlhs hl
      · exact .value (by simp) hrhs hr
    · exact .value (by simp) hdst (by simpa using hnames)

theorem wordUse_loadGlobal {name : String} (h : Emits env source s (.loadGlobal dst name) lines s')
    (hline : line ∈ lines) (hnames : line.instruction.Names offset) : WordUse env [dst] s s' offset := by
  cases h with
  | loadGlobal _ hslot =>
    obtain rfl := List.mem_singleton.mp hline
    exact .value List.mem_cons_self hslot (by simpa using hnames)

theorem wordUse_storeGlobal {name : String} {value : ValueId}
    (h : Emits env source s (.storeGlobal name value) lines s') (hline : line ∈ lines)
    (hnames : line.instruction.Names offset) : WordUse env [value] s s' offset := by
  cases h with
  | storeGlobal _ hslot =>
    obtain rfl := List.mem_singleton.mp hline
    exact .value List.mem_cons_self hslot (by simpa using hnames)

theorem wordUse_new {fields : List Ty} (h : Emits env source s (.new dst fields) lines s')
    (hline : line ∈ lines) (hnames : line.instruction.Names offset) : WordUse env [dst] s s' offset := by
  cases h with
  | new _ _ hslot =>
    obtain rfl := List.mem_singleton.mp hline
    exact .value List.mem_cons_self hslot (by simpa using hnames)

theorem wordUse_loadField {ty : Ty} {object : ValueId} {field : Nat}
    (h : Emits env source s (.loadField dst ty object field) lines s') (hline : line ∈ lines)
    (hnames : line.instruction.Names offset) : WordUse env [dst, object] s s' offset := by
  cases h with
  | loadField haccess hslot =>
    obtain rfl := List.mem_singleton.mp hline
    simp only [names_moveLine, Slot.frameWord?_operand, Operand.frameWord?_fpIndirect,
      Option.some.injEq] at hnames
    rcases hnames with hobject | hdst
    · exact .value (by simp) haccess.slot hobject
    · exact .value (by simp) hslot hdst

theorem wordUse_storeField {object value : ValueId} {field : Nat}
    (h : Emits env source s (.storeField object field value) lines s') (hline : line ∈ lines)
    (hnames : line.instruction.Names offset) : WordUse env [object, value] s s' offset := by
  cases h with
  | storeField hslot haccess =>
    obtain rfl := List.mem_singleton.mp hline
    simp only [names_moveLine, Slot.frameWord?_operand, Operand.frameWord?_fpIndirect,
      Option.some.injEq] at hnames
    rcases hnames with hvalue | hobject
    · exact .value (by simp) hslot hvalue
    · exact .value (by simp) haccess.slot hobject

theorem wordUse_call {result : Option ValueId} {callee : String} {arguments : List ValueId}
    (h : Emits env source s (.call result callee arguments) lines s') (hline : line ∈ lines)
    (hnames : line.instruction.Names offset) :
    WordUse env (result.toList ++ arguments) s s' offset := by
  cases h with
  | call _ _ _ hslots _ hresult =>
    -- the word for the frame is the first one that is handed out
    have hnew : s.frame.size ∈ s.newWords s' :=
      State.size_mem_newWords (length_lt_of_pushed hresult.grows rfl)
    have hframe (h : s.frame.size = offset) : WordUse env (result.toList ++ arguments) s s' offset :=
      .new (h ▸ hnew)
    simp only [List.mem_append, List.mem_cons, List.not_mem_nil, or_false] at hline
    rcases hline with ((rfl | hargument) | hresultLine) | rfl
    · exact hframe (by simpa using hnames)
    · have huse := wordUse_argumentLines hslots hnew hargument hnames
      exact huse.mono (.refl s) (.refl s') (List.subset_append_right _ _)
    · rcases hresult.wordUse hresultLine hnames with hbase | huse
      · exact hframe hbase
      · exact huse.mono (.of_frame s [false]) (.refl s') (List.subset_append_left _ _)
    · exact hframe (by simpa using hnames)

theorem wordUse_callNative {result : Option ValueId} {name : String} {arguments : List ValueId}
    (h : Emits env source s (.callNative result name arguments) lines s') (hline : line ∈ lines)
    (hnames : line.instruction.Names offset) :
    WordUse env (result.toList ++ arguments) s s' offset := by
  cases h with
  | @callNative _ _ _ native slots index context frame word t _ hfound hslots himport hnative hresult =>
    have hnew : s.frame.size ∈ s.newWords s' :=
      State.size_mem_newWords (length_lt_of_pushed (hnative.grows.trans hresult.grows) rfl)
    have hframe (h : s.frame.size = offset) : WordUse env (result.toList ++ arguments) s s' offset :=
      .new (h ▸ hnew)
    have hbefore : s.Grows t :=
      ((State.Grows.of_context s (Context.grows_of_nativeImport hfound himport)).trans
        (State.Grows.of_frame _ [false])).trans hnative.grows
    simp only [List.mem_append, List.mem_cons, List.not_mem_nil, or_false] at hline
    rcases hline with (rfl | hargument) | rfl | rfl
    · exact hframe (by cases hnative <;> simpa using hnames)
    · have huse := wordUse_argumentLines hslots hnew hargument hnames
      exact huse.mono (.refl s) (.refl s') (List.subset_append_right _ _)
    · rcases names_resultLine.mp hnames with rfl | hbase
      · exact hresult.wordUse.mono hbefore (.refl s') (List.subset_append_left _ _)
      · exact hframe hbase
    · exact hframe (by simpa using hnames)

theorem wordUse_jump {target : BlockId} (h : Emits env source s (.jump target) lines s')
    (hline : line ∈ lines) (hnames : line.instruction.Names offset) :
    WordUse env (env.function.edgeValues source target) s s' offset := by
  cases h with
  | jump hblock hedge hmoved =>
    rcases List.mem_append.mp hline with hmove | hjump
    · exact hmoved.wordUse (fun mv hmv => hedge.wordUse hblock hmv) hmove hnames
    · obtain rfl := List.mem_singleton.mp hjump
      exact absurd hnames names_jumpLine

theorem wordUse_branch {condition : ValueId} {thenBlock elseBlock : BlockId}
    (h : Emits env source s (.branch condition thenBlock elseBlock) lines s') (hline : line ∈ lines)
    (hnames : line.instruction.Names offset) :
    WordUse env (condition :: env.function.edgeValues source thenBlock
      ++ env.function.edgeValues source elseBlock) s s' offset := by
  cases h with
  | branchPlain hslot =>
    simp only [List.mem_cons, List.not_mem_nil, or_false] at hline
    rcases hline with rfl | rfl
    · exact .value List.mem_cons_self hslot (names_branchLine.mp hnames)
    · exact absurd hnames names_jumpLine
  | branchMoving hslot _ hthenBlock helseBlock hthenEdge helseEdge helse hthen =>
    simp only [List.mem_append, List.mem_cons, List.not_mem_nil, or_false] at hline
    rcases hline with (((rfl | hline) | rfl) | hline) | rfl
    · exact .value List.mem_cons_self hslot (names_branchLine.mp hnames)
    · have huse := helse.wordUse (fun mv hmv => helseEdge.wordUse helseBlock hmv) hline hnames
      exact huse.mono (.refl s) hthen.grows (List.subset_append_right _ _)
    · exact absurd hnames names_jumpLine
    · have huse := hthen.wordUse (fun mv hmv => hthenEdge.wordUse hthenBlock hmv) hline hnames
      exact huse.mono helse.grows (.refl s')
        (List.Subset.trans (List.subset_cons_self _ _) (List.subset_append_left _ _))
    · exact absurd hnames names_jumpLine

theorem wordUse_ret {value : Option ValueId} (h : Emits env source s (.ret value) lines s')
    (hline : line ∈ lines) (hnames : line.instruction.Names offset) :
    WordUse env value.toList s s' offset := by
  cases h with
  | retValue _ hslot =>
    simp only [List.mem_cons, List.not_mem_nil, or_false] at hline
    rcases hline with rfl | rfl
    · simp only [names_moveLine, Slot.frameWord?_operand, Operand.frameWord?_fpIndirect,
        Option.some.injEq] at hnames
      rcases hnames with hvalue | hreturn
      · exact .value List.mem_cons_self hslot hvalue
      · exact .result hreturn
    · exact absurd hnames names_plain
  | retNone =>
    obtain rfl := List.mem_singleton.mp hline
    exact absurd hnames names_plain

end Kinds

/-- **The words that the lines of an instruction name.** -/
theorem Emits.wordUse {j : Instr} {lines : List Line} (h : Emits env source s j lines s') {line : Line}
    (hline : line ∈ lines) (hnames : line.instruction.Names offset) :
    WordUse env (env.function.valuesAt source j) s s' offset := by
  cases j with
  | const => exact wordUse_const h hline hnames
  | math => exact wordUse_math h hline hnames
  | compare => exact wordUse_compare h hline hnames
  | phi =>
    cases h with
    | phi => cases hline
  | loadGlobal => exact wordUse_loadGlobal h hline hnames
  | storeGlobal => exact wordUse_storeGlobal h hline hnames
  | new => exact wordUse_new h hline hnames
  | loadField => exact wordUse_loadField h hline hnames
  | storeField => exact wordUse_storeField h hline hnames
  | call => exact wordUse_call h hline hnames
  | callNative => exact wordUse_callNative h hline hnames
  | jump => exact wordUse_jump h hline hnames
  | branch => exact wordUse_branch h hline hnames
  | ret => exact wordUse_ret h hline hnames

end Emission

/-! ## What the words that code names are for -/

namespace Lowering

variable {f : Function} {c c' : Context} {fragment : Fragment} {L : Lowering f c fragment c'}
  (T : L.Trace) {place : Place} {q q' : Nat} {b : Ssa.Block × Nat} {j : Instr} {code : List Instruction}
  {offset : Int}

namespace Trace

/-- **The words that the code of an instruction names.** -/
theorem wordUse (hq : f.numbered[q]? = some (b, j)) (hcode : (L.sections place)[q]? = some code)
    {i : Instruction} (hi : i ∈ code) (hnames : i.Names offset) :
    WordUse L.env (f.valuesAt ⟨b.2⟩ j) (T.state q) (T.state (q + 1)) offset := by
  obtain ⟨lines, hlines, rfl⟩ := L.section_at hcode
  obtain ⟨r, hr, rfl⟩ := List.mem_mapIdx.mp hi
  have hemits := T.emits q b j lines hq hlines
  have hwaits := (hemits.kind (List.getElem?_eq_getElem hr)).2
  exact hemits.wordUse (List.getElem_mem hr) ((Line.similar_linked hwaits).names hnames)

/-- **No word is handed out for two instructions.** -/
theorem newWords_unique (hq : q < f.numbered.length) (hq' : q' < f.numbered.length)
    (h : offset ∈ (T.state q).newWords (T.state (q + 1)))
    (h' : offset ∈ (T.state q').newWords (T.state (q' + 1))) : q = q' := by
  obtain ⟨k, hle, hlt, rfl⟩ := State.mem_newWords.mp h
  obtain ⟨k', hle', hlt', heq⟩ := State.mem_newWords.mp h'
  obtain rfl := wordOffset_injective heq
  -- of two instructions, the later one was lowered in a frame that has the words of the earlier one
  rcases Nat.lt_trichotomy q q' with hbefore | rfl | hafter
  · have := (T.grows (show q + 1 ≤ q' from hbefore) (Nat.le_of_lt hq')).frame.length_le
    omega
  · rfl
  · have := (T.grows (show q' + 1 ≤ q from hafter) (Nat.le_of_lt hq)).frame.length_le
    omega

/-- No word of a value is handed out again. -/
theorem slot_not_new (hq : q < f.numbered.length) {v : ValueId} {slot : Slot}
    (hslot : L.slots.lookup v = some slot) :
    slot.offset ∉ (T.state q).newWords (T.state (q + 1)) := by
  intro hnew
  obtain ⟨k, hle, -, heq⟩ := State.mem_newWords.mp hnew
  obtain ⟨k', hk', heq'⟩ := L.slot_frameWord hslot
  obtain rfl := wordOffset_injective (heq.symm.trans heq')
  have hfirst := (T.grows (Nat.zero_le q) (Nat.le_of_lt hq)).frame.length_le
  rw [T.first] at hfirst
  have hframe : L.first.frame.words.length = L.frame.words.length := rfl
  omega

/-- **Words that were handed out for an instruction** are named by no other. -/
theorem newWords_named (hq : q < f.numbered.length) (hq' : f.numbered[q']? = some (b, j))
    (hnew : offset ∈ (T.state q).newWords (T.state (q + 1)))
    (hcode : (L.sections place)[q']? = some code) {i : Instruction} (hi : i ∈ code)
    (hnames : i.Names offset) : q' = q := by
  have hlt : q' < f.numbered.length := (List.getElem?_eq_some_iff.mp hq').1
  cases T.wordUse hq' hcode hi hnames with
  | value _ hslot hoffset => exact absurd (hoffset ▸ hnew) (T.slot_not_new hq hslot)
  | new hnew' => exact T.newWords_unique hlt hq hnew' hnew
  | result hoffset =>
    obtain ⟨k, -, -, heq⟩ := State.mem_newWords.mp hnew
    exact absurd (hoffset.trans heq) (returnSlot_ne_wordOffset k)

end Trace

/-- **The word of a value** is named only by the code of instructions that deal with the value. -/
theorem slot_named (hq : f.numbered[q]? = some (b, j)) (hcode : (L.sections place)[q]? = some code)
    {i : Instruction} (hi : i ∈ code) {v : ValueId} {slot : Slot}
    (hslot : L.slots.lookup v = some slot) (hnames : i.Names slot.offset) :
    v ∈ f.valuesAt ⟨b.2⟩ j := by
  obtain ⟨T⟩ := L.trace
  have hlt : q < f.numbered.length := (List.getElem?_eq_some_iff.mp hq).1
  cases T.wordUse hq hcode hi hnames with
  | value hv hslot' hoffset =>
    obtain rfl := L.slot_injective hslot' hslot hoffset
    exact hv
  | new hnew => exact absurd hnew (T.slot_not_new hlt hslot)
  | result hoffset => exact absurd hoffset (L.slot_frameWord hslot).ne_returnSlot

end Lowering
end DisBackend
