import DisBackend.Proofs.Calls.Words

/-!
# `Proofs.Calls.Access` — the words of values are read and written

A word of the frame is the word of a value only if the code treats it as such: what gives the value writes
the word, and what takes the value reads it. A phi gets its value before its block is entered, so its word
is written by the code that goes to the block.

## Contents

* `Instruction.Reads`, `Instruction.Writes` — the words that an instruction reads and writes;
* `Instr.operands` — the values that an instruction reads;
* `Fetches`, `Stores`, `Accesses` — code that deals with the words of values as its instruction says;
* `Emits.accesses`, `Lowering.accesses` — the lines and the code of an instruction do.
-/

namespace DisBackend

open Ssa (BlockId Function Instr PhiEdge Ty ValueId)

/-! ## Words that are read and written -/

/-- The instruction reads the word of the frame at `offset`, as a value or as the pointer it goes through. -/
def Instruction.Reads (i : Instruction) (offset : Int) : Prop :=
  (i.src = .fp offset ∧ i.opcode ≠ .lea) ∨ i.mid = .fp offset ∨
    ∃ field, i.src = .fpIndirect offset field ∨ i.dst = .fpIndirect offset field

/-- The instruction writes the word of the frame at `offset`, or tells a callee to write it. -/
def Instruction.Writes (i : Instruction) (offset : Int) : Prop :=
  i.dst = .fp offset ∨ (i.src = .fp offset ∧ i.opcode = .lea)

section Operands

variable {ty : Ty} {src dst : Operand} {offset field : Int}

theorem moveOpcode_ne_lea (ty : Ty) : moveOpcode ty ≠ .lea := by
  cases ty <;> decide

theorem mathOpcode?_ne_lea {op : Ssa.MathOp} {opcode : Opcode} (h : mathOpcode? op ty = some opcode) :
    opcode ≠ .lea := by
  rintro rfl
  cases ty <;> cases op <;> cases h

theorem compareOpcode?_ne_lea {op : Ssa.Comparison} {opcode : Opcode}
    (h : compareOpcode? op ty = some opcode) : opcode ≠ .lea := by
  rintro rfl
  cases ty <;> cases op <;> cases h

theorem reads_moveLine : (moveLine ty (.fp offset) dst).instruction.Reads offset :=
  .inl ⟨rfl, moveOpcode_ne_lea ty⟩

theorem reads_moveLine_from : (moveLine ty (.fpIndirect offset field) dst).instruction.Reads offset :=
  .inr (.inr ⟨field, .inl rfl⟩)

theorem reads_moveLine_to : (moveLine ty src (.fpIndirect offset field)).instruction.Reads offset :=
  .inr (.inr ⟨field, .inr rfl⟩)

theorem writes_moveLine : (moveLine ty src (.fp offset)).instruction.Writes offset := .inl rfl

theorem reads_branchLine (condition : Slot) (fixup : Fixup) :
    (branchLine condition fixup).instruction.Reads condition.offset :=
  .inl ⟨rfl, nofun⟩

theorem writes_resultLine (result callFrame : Int) :
    (resultLine result callFrame).instruction.Writes result :=
  .inr ⟨rfl, rfl⟩

theorem accesses_mathInstruction (op : Ssa.MathOp) {opcode : Opcode} (hopcode : opcode ≠ .lea)
    (l r d : Slot) :
    (mathInstruction op opcode l r d).Reads l.offset ∧ (mathInstruction op opcode l r d).Reads r.offset ∧
      (mathInstruction op opcode l r d).Writes d.offset := by
  unfold mathInstruction
  split
  · exact ⟨.inl ⟨rfl, hopcode⟩, .inr (.inl rfl), .inl rfl⟩
  · exact ⟨.inr (.inl rfl), .inl ⟨rfl, hopcode⟩, .inl rfl⟩

/-- An operand that names a word is not one of those that are filled in. -/
theorem Operand.Similar.eq_of_frameWord? {o o' : Operand} (h : o.Similar o')
    (hword : o.frameWord? = some offset) : o' = o := by
  rcases h with rfl | ⟨v, v', rfl, rfl⟩
  · rfl
  · cases hword

theorem Instruction.Similar.reads {i i' : Instruction} (h : i.Similar i') (hreads : i.Reads offset) :
    i'.Reads offset := by
  rcases hreads with ⟨hsrc, hopcode⟩ | hmid | ⟨field, hsrc | hdst⟩
  · exact .inl ⟨(h.src.eq_of_frameWord? (by rw [hsrc]; rfl)).trans hsrc, h.opcode ▸ hopcode⟩
  · exact .inr (.inl ((h.mid.eq_of_frameWord? (by rw [hmid]; rfl)).trans hmid))
  · exact .inr (.inr ⟨field, .inl ((h.src.eq_of_frameWord? (by rw [hsrc]; rfl)).trans hsrc)⟩)
  · exact .inr (.inr ⟨field, .inr ((h.dst.eq_of_frameWord? (by rw [hdst]; rfl)).trans hdst)⟩)

theorem Instruction.Similar.writes {i i' : Instruction} (h : i.Similar i') (hwrites : i.Writes offset) :
    i'.Writes offset := by
  rcases hwrites with hdst | ⟨hsrc, hopcode⟩
  · exact .inl ((h.dst.eq_of_frameWord? (by rw [hdst]; rfl)).trans hdst)
  · exact .inr ⟨(h.src.eq_of_frameWord? (by rw [hsrc]; rfl)).trans hsrc, h.opcode.trans hopcode⟩

end Operands

/-! ## Code that deals with values -/

/-- The values that an instruction reads. A phi reads none: its value is there when its block is entered. -/
def Ssa.Instr.operands : Instr → List ValueId
  | .const .. | .phi .. | .loadGlobal .. | .new .. | .jump _ => []
  | .math _ _ lhs rhs | .compare _ _ lhs rhs => [lhs, rhs]
  | .storeGlobal _ value => [value]
  | .loadField _ _ object _ => [object]
  | .storeField object _ value => [object, value]
  | .call _ _ arguments | .callNative _ _ arguments => arguments
  | .branch condition .. => [condition]
  | .ret value => value.toList

section Code

variable (slots : List (ValueId × Slot)) (code : List Instruction)

/-- The code reads the word of the value. -/
def Fetches (v : ValueId) : Prop :=
  ∃ slot, slots.lookup v = some slot ∧ ∃ i ∈ code, i.Reads slot.offset

/-- The code writes the word of the value. -/
def Stores (v : ValueId) : Prop :=
  ∃ slot, slots.lookup v = some slot ∧ ∃ i ∈ code, i.Writes slot.offset

/-- The code deals with the words of the values as the instruction `j` of the block `source` says. -/
structure Accesses (f : Function) (source : BlockId) (j : Instr) : Prop where
  /-- It reads the values that the instruction reads, -/
  reads : ∀ v ∈ j.operands, Fetches slots code v
  /-- and writes the one that the instruction gives. -/
  writes : j.isPhi = false → ∀ v, j.destination? = some v → Stores slots code v
  /-- If it goes to a block, it writes the phis there, but for those that keep their values. -/
  carries : ∀ target ∈ j.successors, ∀ block, f.block? target = some block → ∀ v ty incoming,
    .phi v ty incoming ∈ block.instructions →
      ∃ edge, incoming.find? (·.block = source) = some edge ∧
        (edge.value = v ∨ Fetches slots code edge.value ∧ Stores slots code v)

end Code

section Mono

variable {slots : List (ValueId × Slot)} {code code' : List Instruction} {f : Function} {source : BlockId}
  {j : Instr}

/-- Code that has all of the code, but for numbers, deals with the same words. -/
theorem Accesses.mono (h : Accesses slots code f source j)
    (hcode : ∀ i ∈ code, ∃ i' ∈ code', i.Similar i') : Accesses slots code' f source j := by
  have hfetches {v : ValueId} : Fetches slots code v → Fetches slots code' v := by
    rintro ⟨slot, hslot, i, hi, hreads⟩
    obtain ⟨i', hi', hsimilar⟩ := hcode i hi
    exact ⟨slot, hslot, i', hi', hsimilar.reads hreads⟩
  have hstores {v : ValueId} : Stores slots code v → Stores slots code' v := by
    rintro ⟨slot, hslot, i, hi, hwrites⟩
    obtain ⟨i', hi', hsimilar⟩ := hcode i hi
    exact ⟨slot, hslot, i', hi', hsimilar.writes hwrites⟩
  refine ⟨fun v hv => hfetches (h.reads v hv), fun hphi v hv => hstores (h.writes hphi v hv), ?_⟩
  intro target htarget block hblock v ty incoming hphi
  obtain ⟨edge, hedge, hvalue⟩ := h.carries target htarget block hblock v ty incoming hphi
  exact ⟨edge, hedge, hvalue.imp_right fun hmoved => ⟨hfetches hmoved.1, hstores hmoved.2⟩⟩

end Mono

/-! ## The lines of an instruction -/

section Emission

variable {env : Env} {source : BlockId} {s s' : State} {lines : List Line} {v : ValueId} {slot : Slot}
  {line : Line}

theorem fetches_of_line (hslot : env.slots.lookup v = some slot) (hline : line ∈ lines)
    (hreads : line.instruction.Reads slot.offset) :
    Fetches env.slots (lines.map Line.instruction) v :=
  ⟨slot, hslot, line.instruction, List.mem_map_of_mem hline, hreads⟩

theorem stores_of_line (hslot : env.slots.lookup v = some slot) (hline : line ∈ lines)
    (hwrites : line.instruction.Writes slot.offset) :
    Stores env.slots (lines.map Line.instruction) v :=
  ⟨slot, hslot, line.instruction, List.mem_map_of_mem hline, hwrites⟩

/-- An instruction that goes nowhere. -/
theorem Accesses.of_straight {f : Function} {slots : List (ValueId × Slot)} {code : List Instruction}
    {j : Instr} (hstraight : j.successors = []) (hreads : ∀ v ∈ j.operands, Fetches slots code v)
    (hwrites : ∀ v, j.destination? = some v → Stores slots code v) : Accesses slots code f source j := by
  refine ⟨hreads, fun _ => hwrites, ?_⟩
  intro target htarget
  rw [hstraight] at htarget
  cases htarget

/-- A single line that gives a value and reads none. -/
theorem accesses_of_single {dst : ValueId} {j : Instr} (hstraight : j.successors = [])
    (hoperands : j.operands = []) (hdst : j.destination? = some dst)
    (hslot : env.slots.lookup dst = some slot) (hwrites : line.instruction.Writes slot.offset) :
    Accesses env.slots [line.instruction] env.function source j := by
  refine .of_straight hstraight ?_ ?_
  · intro v hv
    rw [hoperands] at hv
    cases hv
  · intro v hv
    rw [hdst, Option.some.injEq] at hv
    subst hv
    exact ⟨slot, hslot, line.instruction, List.mem_cons_self, hwrites⟩

variable {dst : ValueId}

theorem accesses_const {value : Ssa.Constant} (h : Emits env source s (.const dst value) lines s') :
    Accesses env.slots (lines.map Line.instruction) env.function source (.const dst value) := by
  cases h with
  | constNear _ hslot | constBool hslot | constCell _ hslot =>
    exact accesses_of_single rfl rfl rfl hslot writes_moveLine

theorem accesses_math {op : Ssa.MathOp} {lhs rhs : ValueId}
    (h : Emits env source s (.math dst op lhs rhs) lines s') :
    Accesses env.slots (lines.map Line.instruction) env.function source (.math dst op lhs rhs) := by
  cases h with
  | @math _ _ _ _ l r d opcode hlhs hrhs hdst _ hselected =>
    obtain ⟨hl, hr, hd⟩ := accesses_mathInstruction op (mathOpcode?_ne_lea hselected) l r d
    refine .of_straight rfl ?_ ?_
    · intro v hv
      rcases List.mem_pair.mp hv with rfl | rfl
      · exact fetches_of_line hlhs List.mem_cons_self hl
      · exact fetches_of_line hrhs List.mem_cons_self hr
    · rintro v ⟨⟩
      exact stores_of_line hdst List.mem_cons_self hd

theorem accesses_compare {op : Ssa.Comparison} {lhs rhs : ValueId}
    (h : Emits env source s (.compare dst op lhs rhs) lines s') :
    Accesses env.slots (lines.map Line.instruction) env.function source (.compare dst op lhs rhs) := by
  cases h with
  | compare hlhs hrhs hdst _ hselected =>
    -- the operands are compared by the second of three lines, the others write the outcome
    refine .of_straight rfl ?_ ?_
    · intro v hv
      rcases List.mem_pair.mp hv with rfl | rfl
      · exact fetches_of_line hlhs (List.mem_cons_of_mem _ List.mem_cons_self)
          (.inl ⟨rfl, compareOpcode?_ne_lea hselected⟩)
      · exact fetches_of_line hrhs (List.mem_cons_of_mem _ List.mem_cons_self) (.inr (.inl rfl))
    · rintro v ⟨⟩
      exact stores_of_line hdst List.mem_cons_self writes_moveLine

theorem accesses_loadGlobal {name : String} (h : Emits env source s (.loadGlobal dst name) lines s') :
    Accesses env.slots (lines.map Line.instruction) env.function source (.loadGlobal dst name) := by
  cases h with
  | loadGlobal _ hslot => exact accesses_of_single rfl rfl rfl hslot writes_moveLine

theorem accesses_storeGlobal {name : String} {value : ValueId}
    (h : Emits env source s (.storeGlobal name value) lines s') :
    Accesses env.slots (lines.map Line.instruction) env.function source (.storeGlobal name value) := by
  cases h with
  | storeGlobal _ hslot =>
    refine .of_straight rfl ?_ nofun
    intro v hv
    obtain rfl := List.mem_singleton.mp hv
    exact fetches_of_line hslot List.mem_cons_self reads_moveLine

theorem accesses_new {fields : List Ty} (h : Emits env source s (.new dst fields) lines s') :
    Accesses env.slots (lines.map Line.instruction) env.function source (.new dst fields) := by
  cases h with
  | new _ _ hslot => exact accesses_of_single rfl rfl rfl hslot (.inl rfl)

theorem accesses_loadField {ty : Ty} {object : ValueId} {field : Nat}
    (h : Emits env source s (.loadField dst ty object field) lines s') :
    Accesses env.slots (lines.map Line.instruction) env.function source
      (.loadField dst ty object field) := by
  cases h with
  | loadField haccess hslot =>
    refine .of_straight rfl ?_ ?_
    · intro v hv
      obtain rfl := List.mem_singleton.mp hv
      exact fetches_of_line haccess.slot List.mem_cons_self reads_moveLine_from
    · rintro v ⟨⟩
      exact stores_of_line hslot List.mem_cons_self writes_moveLine

theorem accesses_storeField {object value : ValueId} {field : Nat}
    (h : Emits env source s (.storeField object field value) lines s') :
    Accesses env.slots (lines.map Line.instruction) env.function source
      (.storeField object field value) := by
  cases h with
  | storeField hslot haccess =>
    refine .of_straight rfl ?_ nofun
    intro v hv
    rcases List.mem_pair.mp hv with rfl | rfl
    · exact fetches_of_line haccess.slot List.mem_cons_self reads_moveLine_to
    · exact fetches_of_line hslot List.mem_cons_self reads_moveLine

/-- The lines that store arguments read them. -/
theorem fetches_argument (base : Int) {arguments : List ValueId} {slots : List Slot}
    (hslots : List.Forall₂ (fun v slot => env.slots.lookup v = some slot) arguments slots)
    (hlines : argumentLines base slots ⊆ lines) (hv : v ∈ arguments) :
    Fetches env.slots (lines.map Line.instruction) v := by
  obtain ⟨k, hk⟩ := List.mem_iff_getElem?.mp hv
  obtain ⟨slot, hslot, hlookup⟩ := forall₂_getElem? hslots hk
  obtain ⟨hlt, rfl⟩ := List.getElem?_eq_some_iff.mp hslot
  exact fetches_of_line hlookup (hlines (List.mem_mapIdx.mpr ⟨k, hlt, rfl⟩)) reads_moveLine

theorem accesses_call {result : Option ValueId} {callee : String} {arguments : List ValueId}
    (h : Emits env source s (.call result callee arguments) lines s') :
    Accesses env.slots (lines.map Line.instruction) env.function source
      (.call result callee arguments) := by
  cases h with
  | @call _ _ _ target _ _ _ _ _ _ hslots _ hresult =>
    refine .of_straight rfl ?_ ?_
    · intro v hv
      refine fetches_argument s.frame.size hslots ?_ hv
      intro line hline
      simp [hline]
    · rintro v ⟨⟩
      generalize target.result = ty at hresult
      cases hresult with
      | kept hslot => exact stores_of_line hslot (by simp) (writes_resultLine _ s.frame.size)

theorem accesses_callNative {result : Option ValueId} {name : String} {arguments : List ValueId}
    (h : Emits env source s (.callNative result name arguments) lines s') :
    Accesses env.slots (lines.map Line.instruction) env.function source
      (.callNative result name arguments) := by
  cases h with
  | callNative _ hslots _ _ hresult =>
    refine .of_straight rfl ?_ ?_
    · intro v hv
      refine fetches_argument s.frame.size hslots ?_ hv
      intro line hline
      simp [hline]
    · rintro v ⟨⟩
      cases hresult with
      | kept _ hslot => exact stores_of_line hslot (by simp) (writes_resultLine _ s.frame.size)

theorem accesses_ret {value : Option ValueId} (h : Emits env source s (.ret value) lines s') :
    Accesses env.slots (lines.map Line.instruction) env.function source (.ret value) := by
  cases h with
  | retValue _ hslot =>
    refine .of_straight rfl ?_ nofun
    intro v hv
    obtain rfl := List.mem_singleton.mp hv
    exact fetches_of_line hslot List.mem_cons_self reads_moveLine
  | retNone => exact .of_straight rfl nofun nofun

/-! ## Moves -/

/-- The line of a move, among those that carry out moves one after the other. -/
theorem mem_directLines {moves : List Move} {mv : Move} (h : mv ∈ moves) :
    moveLine mv.ty (.fp mv.src) (.fp mv.dst) ∈ directLines moves :=
  List.mem_map.mpr ⟨mv, h, rfl⟩

/-- **The lines for moves** read the source of every move and write its destination. -/
theorem Moved.accesses {moves : List Move} (h : Moved moves s lines s') {mv : Move} (hmv : mv ∈ moves) :
    (∃ line ∈ lines, line.instruction.Reads mv.src) ∧ ∃ line ∈ lines, line.instruction.Writes mv.dst := by
  cases h with
  | direct =>
    have hline := mem_directLines hmv
    exact ⟨⟨_, hline, reads_moveLine⟩, ⟨_, hline, writes_moveLine⟩⟩
  | through =>
    -- the temporary of the move has the same number
    obtain ⟨k, hk, rfl⟩ := List.getElem_of_mem hmv
    have hlength : k < (s.frame.nextOffsets moves.length).length := by
      simpa [Frame.nextOffsets] using hk
    have hpair : (moves[k], (s.frame.nextOffsets moves.length)[k]) ∈
        moves.zip (s.frame.nextOffsets moves.length) := by
      refine List.mem_iff_getElem?.mpr ⟨k, ?_⟩
      rw [List.getElem?_zip_eq_some]
      exact ⟨List.getElem?_eq_getElem hk, List.getElem?_eq_getElem hlength⟩
    have hsave := mem_directLines (List.mem_map.mpr ⟨_, hpair, rfl⟩ :
      ⟨moves[k].ty, moves[k].src, (s.frame.nextOffsets moves.length)[k]⟩ ∈
        savingMoves moves (s.frame.nextOffsets moves.length))
    have hrestore := mem_directLines (List.mem_map.mpr ⟨_, hpair, rfl⟩ :
      ⟨moves[k].ty, (s.frame.nextOffsets moves.length)[k], moves[k].dst⟩ ∈
        restoringMoves moves (s.frame.nextOffsets moves.length))
    exact ⟨⟨_, List.mem_append_left _ hsave, reads_moveLine⟩,
      ⟨_, List.mem_append_right _ hrestore, writes_moveLine⟩⟩

/-- The phis of a block get their values from the lines that carry out the moves of an edge. -/
theorem EdgeMoves.carries {instrs : List Instr} {moves : List Move} {moveLines : List Line}
    (h : EdgeMoves env source instrs moves) (hmoved : Moved moves s moveLines s')
    (hlines : moveLines ⊆ lines)
    (hslots : ∀ {v w a b}, env.slots.lookup v = some a → env.slots.lookup w = some b →
      a.offset = b.offset → v = w) (hshape : Ssa.misplacedPhi? instrs = none) {ty : Ty}
    {incoming : List PhiEdge} (hphi : .phi v ty incoming ∈ instrs) :
    ∃ edge, incoming.find? (·.block = source) = some edge ∧
      (edge.value = v ∨ Fetches env.slots (lines.map Line.instruction) edge.value ∧
        Stores env.slots (lines.map Line.instruction) v) := by
  obtain ⟨edge, d, src, hedge, hmove⟩ := h.move_of_phi hshape hphi
  refine ⟨edge, hedge.edge_found, ?_⟩
  rcases hmove with hsame | hmem
  · exact .inl (hslots hedge.src_slot hedge.dst_slot hsame)
  · obtain ⟨⟨line, hline, hreads⟩, ⟨line', hline', hwrites⟩⟩ := hmoved.accesses hmem
    exact .inr ⟨fetches_of_line hedge.src_slot (hlines hline) hreads,
      stores_of_line hedge.dst_slot (hlines hline') hwrites⟩

variable
  (hslots : ∀ {v w a b}, env.slots.lookup v = some a → env.slots.lookup w = some b →
    a.offset = b.offset → v = w)
  (hshape : ∀ target block, env.function.block? target = some block →
    Ssa.misplacedPhi? block.instructions = none)

include hslots hshape

theorem accesses_jump {target : BlockId} (h : Emits env source s (.jump target) lines s') :
    Accesses env.slots (lines.map Line.instruction) env.function source (.jump target) := by
  cases h with
  | jump hblock hedge hmoved =>
    refine ⟨nofun, fun _ => nofun, ?_⟩
    intro target' htarget block' hblock' v ty incoming hphi
    obtain rfl := List.mem_singleton.mp htarget
    rw [hblock, Option.some.injEq] at hblock'
    subst hblock'
    exact hedge.carries hmoved (List.subset_append_left _ _) hslots (hshape _ _ hblock) hphi

theorem accesses_branch {condition : ValueId} {thenBlock elseBlock : BlockId}
    (h : Emits env source s (.branch condition thenBlock elseBlock) lines s') :
    Accesses env.slots (lines.map Line.instruction) env.function source
      (.branch condition thenBlock elseBlock) := by
  cases h with
  | branchPlain hslot _ hthenBlock helseBlock hthenEdge helseEdge =>
    refine ⟨?_, fun _ => nofun, ?_⟩
    · intro v hv
      obtain rfl := List.mem_singleton.mp hv
      exact fetches_of_line hslot List.mem_cons_self (reads_branchLine _ _)
    · intro target htarget block hblock v ty incoming hphi
      -- there are no moves, so every phi keeps its value
      have hnone : Moved [] s [] s := .direct rfl
      rcases List.mem_pair.mp htarget with rfl | rfl
      · obtain rfl := Option.some.inj (hthenBlock.symm.trans hblock)
        exact hthenEdge.carries hnone (List.nil_subset _) hslots (hshape _ _ hblock) hphi
      · obtain rfl := Option.some.inj (helseBlock.symm.trans hblock)
        exact helseEdge.carries hnone (List.nil_subset _) hslots (hshape _ _ hblock) hphi
  | branchMoving hslot _ hthenBlock helseBlock hthenEdge helseEdge helse hthen =>
    refine ⟨?_, fun _ => nofun, ?_⟩
    · intro v hv
      obtain rfl := List.mem_singleton.mp hv
      exact fetches_of_line hslot List.mem_cons_self (reads_branchLine _ _)
    · intro target htarget block hblock v ty incoming hphi
      rcases List.mem_pair.mp htarget with rfl | rfl
      · obtain rfl := Option.some.inj (hthenBlock.symm.trans hblock)
        refine hthenEdge.carries hthen ?_ hslots (hshape _ _ hblock) hphi
        intro line hline
        simp [hline]
      · obtain rfl := Option.some.inj (helseBlock.symm.trans hblock)
        refine helseEdge.carries helse ?_ hslots (hshape _ _ hblock) hphi
        intro line hline
        simp [hline]

/-- **The lines of an instruction** deal with the words of the values as the instruction says. -/
theorem Emits.accesses {j : Instr} (h : Emits env source s j lines s') :
    Accesses env.slots (lines.map Line.instruction) env.function source j := by
  cases j with
  | const => exact accesses_const h
  | math => exact accesses_math h
  | compare => exact accesses_compare h
  | phi => exact ⟨nofun, nofun, nofun⟩
  | loadGlobal => exact accesses_loadGlobal h
  | storeGlobal => exact accesses_storeGlobal h
  | new => exact accesses_new h
  | loadField => exact accesses_loadField h
  | storeField => exact accesses_storeField h
  | call => exact accesses_call h
  | callNative => exact accesses_callNative h
  | jump => exact accesses_jump hslots hshape h
  | branch => exact accesses_branch hslots hshape h
  | ret => exact accesses_ret h

end Emission

/-! ## The code of an instruction -/

/-- **The code of an instruction** deals with the words of the values as the instruction says. -/
theorem Lowering.accesses {f : Function} {c c' : Context} {fragment : Fragment}
    (L : Lowering f c fragment c') {place : Place} {q : Nat} {b : Ssa.Block × Nat} {j : Instr}
    {code : List Instruction} (hq : f.numbered[q]? = some (b, j))
    (hcode : (L.sections place)[q]? = some code) : Accesses L.slots code f ⟨b.2⟩ j := by
  obtain ⟨T⟩ := L.trace
  obtain ⟨lines, hlines, rfl⟩ := L.section_at hcode
  have hemits := T.emits q b j lines hq hlines
  refine (hemits.accesses L.slot_injective ?_).mono ?_
  · intro target block hblock
    exact (Function.shape_of_shapeFault? L.shape hblock).phis_first
  · intro i hi
    obtain ⟨line, hline, rfl⟩ := List.mem_map.mp hi
    obtain ⟨r, hr, rfl⟩ := List.getElem_of_mem hline
    have hwaits := (hemits.kind (List.getElem?_eq_getElem hr)).2
    exact ⟨_, List.mem_mapIdx.mpr ⟨r, hr, rfl⟩, Line.similar_linked hwaits⟩

end DisBackend
