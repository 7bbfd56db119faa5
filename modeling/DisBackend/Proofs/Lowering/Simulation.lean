import DisBackend.Proofs.Descriptor
import DisBackend.Proofs.Lowering.Representation

/-!
# `Proofs.Lowering.Simulation` — lowered code does what the function does

For every instruction of a function, the code written for it takes the machine from a state that stands
for the function before the instruction to one that stands for it afterwards.

## Contents

* `action?_mathOpcode`, `action?_compareOpcode` — the operations selected are the right ones;
* `Simulated` and one lemma for each form of code;
* `Agrees.simulated_step`, `Agrees.simulated_return` — one instruction, and the end of the function;
* `Agrees.simulated_run` — any number of instructions.
-/

namespace DisBackend

open Ssa (BlockId Comparison Config Constant Function Instr MathOp Memory PhiEdge Progress Ty Value
  ValueId)

/-! ## Selection -/

/-- **The operation selected** computes what the program asks for. -/
theorem action?_mathOpcode {op : MathOp} {ty : Ty} {opcode : Opcode} {kind : Kind}
    (h : mathOpcode? op ty = some opcode) (hkind : ty.kind? = some kind) :
    opcode.action? = some (.compute kind op) := by
  cases ty with
  | int => cases h; cases hkind; cases op <;> rfl
  | real => cases hkind; cases op <;> cases h <;> rfl
  | string => cases hkind; cases op <;> cases h; rfl
  | bool => cases h
  | object => cases h

/-- **The branch selected** compares as the program asks for. -/
theorem action?_compareOpcode {op : Comparison} {ty : Ty} {opcode : Opcode} {kind : Kind}
    (h : compareOpcode? op ty = some opcode) (hkind : ty.kind? = some kind) :
    opcode.action? = some (.branch kind op) := by
  cases ty with
  | int => cases h; cases hkind; cases op <;> rfl
  | real => cases h; cases hkind; cases op <;> rfl
  | bool => cases h; cases hkind; cases op <;> rfl
  | string => cases h; cases hkind; cases op <;> rfl
  | object => cases h

/-- Only strings are joined. -/
theorem kind_ne_string {op : MathOp} {ty : Ty} {opcode : Opcode} {kind : Kind}
    (h : mathOpcode? op ty = some opcode) (hkind : ty.kind? = some kind) (hne : opcode ≠ .addc) :
    kind ≠ .string := by
  rintro rfl
  have haction := action?_mathOpcode h hkind
  cases ty with
  | string =>
    simp only [mathOpcode?] at h
    by_cases hop : op = .add
    · rw [if_pos hop] at h; cases h; exact hne rfl
    · rw [if_neg hop] at h; cases h
  | int => cases hkind
  | real => cases hkind
  | bool => cases hkind
  | object => cases hkind

/-! ## Code that binds a value -/

section Instructions

variable {f : Function} {c c' : Context} {fragment : Fragment} {L : Lowering f c fragment c'}
  {P : Platform} {r : Option Datum} {config : Config} {m : Machine} {lines : List Line}

/-- From `m` the machine comes to the address `pc`, in a state that stands for `config`. -/
def Simulated (L : Lowering f c fragment c') (P : Platform) (r : Option Datum) (m : Machine)
    (config : Config) (pc : Nat) : Prop :=
  ∃ m', m.Reaches P fragment m' ∧ m'.pc = pc ∧ Agrees L r config m'

/-- Only a comparison can be a comparison with itself. -/
theorem Lowering.not_selfCompared (L : Lowering f c fragment c') {i : Instr} {dst : ValueId}
    (hi : i ∈ f.instructions) (hdst : i.destination? = some dst)
    (hother : ∀ op lhs rhs, i ≠ .compare dst op lhs rhs) : ¬ SelfCompared f dst := by
  rintro ⟨op, lhs, rhs, hcompare, -⟩
  exact hother op lhs rhs (L.wellTyped.destination_unique hi hcompare hdst rfl)

/-- A comparison whose operands are bound is none with itself. -/
theorem Agrees.not_selfCompared (h : Agrees L r config m) {dst lhs rhs : ValueId} {op : Comparison}
    {a b : Value} (hi : Instr.compare dst op lhs rhs ∈ f.instructions)
    (ha : config.values lhs = some a) (hb : config.values rhs = some b) : ¬ SelfCompared f dst := by
  intro hself
  have hnone := h.unbound hself
  obtain ⟨op', lhs', rhs', hcompare, hwhich⟩ := hself
  cases L.wellTyped.destination_unique hi hcompare rfl rfl
  rcases hwhich with rfl | rfl
  · rw [hnone] at ha; cases ha
  · rw [hnone] at hb; cases hb

/-- One instruction that writes the word of a value. -/
theorem Agrees.simulated_define (h : Agrees L r config m) {dst : ValueId} {x : Value} {slot : Slot}
    (hslot : L.slots.lookup dst = some slot) (hty : slot.ty = x.ty) (hself : ¬ SelfCompared f dst)
    (hstep : ∀ frame : Area, m.frame.store? slot.offset x.word = some frame →
      m.step? P fragment = some { m with pc := m.pc + 1, frame }) :
    Simulated L P r m (config.define dst x) (m.pc + 1) := by
  obtain ⟨frame, hstore⟩ := h.exists_store hslot x.word
  exact ⟨_, .of_step (hstep frame hstore), rfl, h.define hslot hty hstore hself _⟩

/-- A move into the word of a value. -/
theorem Agrees.simulated_move (h : Agrees L r config m) {dst : ValueId} {x : Value} {slot : Slot}
    {ty : Ty} {src : Operand}
    (hplaced : Placed L.starts fragment.code m.pc [moveLine ty src slot.operand])
    (hslot : L.slots.lookup dst = some slot) (hty : slot.ty = x.ty) (hself : ¬ SelfCompared f dst)
    (hread : m.read? src = some x.word) :
    Simulated L P r m (config.define dst x) (m.pc + 1) :=
  h.simulated_define hslot hty hself fun _ hstore => moveLine_step_fp hplaced hread hstore

theorem Agrees.simulated_const (h : Agrees L r config m) {source : BlockId} {t t' : State}
    {dst : ValueId} {value : Constant} (hi : Instr.const dst value ∈ f.instructions)
    (hemits : Emits L.env source t (.const dst value) lines t') (hlater : t'.Grows L.final)
    (hplaced : Placed L.starts fragment.code m.pc lines) :
    Simulated L P r m (config.define dst value.value) (m.pc + lines.length) := by
  have hself := L.not_selfCompared hi rfl (by intros; exact Instr.noConfusion)
  have htype : value.ty = value.value.ty := by cases value <;> rfl
  cases hemits with
  | @constNear _ n slot hnear hslot =>
    refine h.simulated_move hplaced hslot ((L.slot_result hi rfl hslot).trans htype) hself ?_
    show some (Datum.int (Int64.ofInt n.toInt)) = some (.int n)
    rw [Int64.ofInt_toInt]
  | @constBool _ b slot hslot =>
    refine h.simulated_move hplaced hslot ((L.slot_result hi rfl hslot).trans htype) hself ?_
    cases b <;> rfl
  | constCell hcell hslot hintern =>
    refine h.simulated_move hplaced hslot ((L.slot_result hi rfl hslot).trans htype) hself ?_
    obtain ⟨k, hk, rfl⟩ := Context.intern_ok hintern
    exact h.loaded.constant hcell (L.context_grows.cell (hlater.context.cell hk))

theorem Agrees.simulated_math (h : Agrees L r config m) {source : BlockId} {t t' : State}
    {dst lhs rhs : ValueId} {op : MathOp} (hi : Instr.math dst op lhs rhs ∈ f.instructions)
    (hemits : Emits L.env source t (.math dst op lhs rhs) lines t')
    (hplaced : Placed L.starts fragment.code m.pc lines) {a b : Value} {ty : Ty} {kind : Kind}
    {w : Datum} (ha : config.values lhs = some a) (hb : config.values rhs = some b)
    (hshared : a.sharedType? b = some ty) (hkind : ty.kind? = some kind)
    (hw : P.compute? op kind a.word b.word = some w) :
    Simulated L P r m (config.define dst ⟨ty, w⟩) (m.pc + lines.length) := by
  have hself := L.not_selfCompared hi rfl (by intros; exact Instr.noConfusion)
  cases hemits with
  | @math _ _ _ _ l s d opcode hl hs hd hsame hselected =>
    obtain ⟨hlty, hlword⟩ := h.word ha hl
    obtain ⟨-, hsword⟩ := h.word hb hs
    have hty : ty = l.ty := Value.sharedType?_eq hshared ▸ hlty.symm
    rw [hty] at hkind
    refine h.simulated_define hd ((L.slot_math hi hd hl).trans hty.symm) hself fun frame hstore => ?_
    have haction := action?_mathOpcode hselected hkind
    have hwrite : m.write? w d.operand = some { m with frame } := by
      simp [Machine.write?, Slot.operand, hstore]
    have hcode := hplaced.settled.1
    unfold mathInstruction at hcode
    by_cases hswap : op.isCommutative ∧ opcode ≠ .addc
    · -- the operands stand in the order of the program, so that the machine exchanges them
      rw [if_pos hswap] at hcode
      rw [P.compute?_comm hswap.1 (kind_ne_string hselected hkind hswap.2)] at hw
      exact Machine.step?_compute hcode haction rfl hsword hlword hw hwrite
    · rw [if_neg hswap] at hcode
      exact Machine.step?_compute hcode haction rfl hlword hsword hw hwrite

theorem Agrees.simulated_compare (h : Agrees L r config m) {source : BlockId} {t t' : State}
    {dst lhs rhs : ValueId} {op : Comparison} (hi : Instr.compare dst op lhs rhs ∈ f.instructions)
    (hemits : Emits L.env source t (.compare dst op lhs rhs) lines t')
    (hplaced : Placed L.starts fragment.code m.pc lines) {a b : Value} {ty : Ty} {kind : Kind}
    {holds : Bool} (ha : config.values lhs = some a) (hb : config.values rhs = some b)
    (hshared : a.sharedType? b = some ty) (hkind : ty.kind? = some kind)
    (hholds : P.compare? op kind a.word b.word = some holds) :
    Simulated L P r m (config.define dst ⟨.bool, .truth holds⟩) (m.pc + lines.length) := by
  have hself := h.not_selfCompared hi ha hb
  cases hemits with
  | @compare _ _ _ _ l s d opcode hl hs hd hsame hselected =>
    obtain ⟨hlty, hlword⟩ := h.word ha hl
    obtain ⟨-, hsword⟩ := h.word hb hs
    have hdty : d.ty = .bool := L.slot_result hi rfl hd
    have hty : ty = l.ty := Value.sharedType?_eq hshared ▸ hlty.symm
    rw [hty] at hkind
    -- first the result becomes true, which leaves the operands alone
    obtain ⟨frame, hstore⟩ := h.exists_store hd (.truth true)
    have htrue : m.step? P fragment = some { m with pc := m.pc + 1, frame } :=
      moveLine_step_fp hplaced (w := .truth true) rfl hstore
    have hagrees := h.define (x := ⟨.bool, .truth true⟩) hd hdty hstore hself (m.pc + 1)
    have hoperand {v : ValueId} {slot : Slot} (hslot : L.slots.lookup v = some slot)
        (hv : v = lhs ∨ v = rhs) : frame.word? slot.offset = m.frame.word? slot.offset := by
      refine Area.word?_store?_of_ne hstore fun ho => hself ⟨op, lhs, rhs, hi, ?_⟩
      rw [← L.slot_injective hslot hd ho]
      exact hv
    have haction := action?_compareOpcode hselected hkind
    obtain ⟨hcode, hlast⟩ := Placed.ahead hplaced.settled.2
    have hlread := (hoperand hl (.inl rfl)).trans hlword
    have hsread := (hoperand hs (.inr rfl)).trans hsword
    cases holds with
    | true =>
      have hbranch : Machine.step? P fragment { m with pc := m.pc + 1, frame }
          = some { m with pc := m.pc + 1 + 2, frame } :=
        Machine.step?_branch_taken hcode haction hlread hsread hholds rfl
      exact ⟨_, .step htrue (.of_step hbranch), rfl, hagrees.move _ _ _⟩
    | false =>
      have hbranch : Machine.step? P fragment { m with pc := m.pc + 1, frame }
          = some { m with pc := m.pc + 1 + 1, frame } :=
        Machine.step?_branch_passed hcode haction hlread hsread hholds
      obtain ⟨frame', hstore'⟩ := hagrees.exists_store hd (.truth false)
      have hfalse : Machine.step? P fragment { m with pc := m.pc + 1 + 1, frame }
          = some { m with pc := m.pc + 1 + 1 + 1, frame := frame' } :=
        moveLine_step_fp hlast (w := .truth false) rfl hstore'
      exact ⟨_, .step htrue (.step hbranch (.of_step hfalse)), rfl,
        hagrees.redefine hd hdty hstore' hself _⟩

/-! ## Code that works on memory -/

theorem Agrees.simulated_loadGlobal (h : Agrees L r config m) {source : BlockId} {t t' : State}
    {dst : ValueId} {name : String} (hi : Instr.loadGlobal dst name ∈ f.instructions)
    (hemits : Emits L.env source t (.loadGlobal dst name) lines t') (hearlier : L.first.Grows t)
    (hlater : t'.Grows L.final) (hplaced : Placed L.starts fragment.code m.pc lines) {ty : Ty}
    (hty : c'.declared name = some ty) :
    Simulated L P r m (config.define dst ⟨ty, config.memory.globals name⟩) (m.pc + lines.length) := by
  have hself := L.not_selfCompared hi rfl (by intros; exact Instr.noConfusion)
  cases hemits with
  | @loadGlobal _ _ global slot hfound hslot =>
    have hglobal := L.context_grows.global? (hlater.context.global? hfound)
    rw [Context.declared, hglobal, Option.map_some, Option.some.injEq] at hty
    exact h.simulated_move hplaced hslot ((L.slot_global hi hslot hearlier hfound).trans hty) hself
      (h.memory.globals hglobal)

theorem Agrees.simulated_storeGlobal (h : Agrees L r config m) {source : BlockId} {t t' : State}
    {value : ValueId} {name : String}
    (hemits : Emits L.env source t (.storeGlobal name value) lines t') (hlater : t'.Grows L.final)
    (hplaced : Placed L.starts fragment.code m.pc lines) {a : Value}
    (ha : config.values value = some a) :
    Simulated L P r m (config.advance (config.memory.setGlobal name a.word)) (m.pc + lines.length) := by
  cases hemits with
  | @storeGlobal _ _ global slot hfound hslot hsame =>
    have hglobal := L.context_grows.global? (hlater.context.global? hfound)
    have hword := h.memory.globals hglobal
    obtain ⟨data, hstore⟩ := Area.exists_store? (Option.isSome_iff_exists.mpr ⟨_, hword⟩) a.word
    have hwrite : m.write? a.word (.mp global.offset) = some { m with data } := by
      simp [Machine.write?, hstore]
    exact ⟨_, .of_step (moveLine_step hplaced (h.word ha hslot).2 hwrite), rfl,
      h.setGlobal hglobal hstore _⟩

theorem Agrees.simulated_new (h : Agrees L r config m) {source : BlockId} {t t' : State}
    {dst : ValueId} {fields : List Ty} (hi : Instr.new dst fields ∈ f.instructions)
    (hemits : Emits L.env source t (.new dst fields) lines t') (hlater : t'.Grows L.final)
    (hplaced : Placed L.starts fragment.code m.pc lines) :
    Simulated L P r m
      ({ config with memory := (config.memory.allocate P fields.length).2 }.define dst
        ⟨.object, (config.memory.allocate P fields.length).1⟩) (m.pc + lines.length) := by
  have hself := L.not_selfCompared hi rfl (by intros; exact Instr.noConfusion)
  cases hemits with
  | @new _ _ slot d hdescribed hnumbered hslot =>
    have hsite : fragment.callSites[t.callSites.length]? = some d := by
      rw [L.fragment_callSites]
      exact getElem?_of_prefix hlater.callSites (by simp)
    -- the object of the machine has at least one word for each field
    have hlen : fields.length ≤ (d.size / wordBytes).toNat := by
      rw [(describe_ok hdescribed).2]
      unfold wordBytes
      omega
    have hnumber : m.heap.length = config.memory.heap.length := h.memory.heap.length
    have hprefix : (List.range fields.length).map (P.fresh config.memory.heap.length) <+:
        (List.range (d.size / wordBytes).toNat).map (P.fresh m.heap.length) := by
      rw [hnumber]
      refine List.IsPrefix.map _ ?_
      rw [← Nat.min_eq_left hlen, ← List.take_range]
      exact List.take_prefix _ _
    have hagrees := h.setHeap (h.memory.heap.append hprefix) m.pc
    obtain ⟨frame, hstore⟩ := hagrees.exists_store hslot (.object config.memory.heap.length)
    have hwrite : (m.allocate P d).2.write? (m.allocate P d).1 slot.operand
        = some { (m.allocate P d).2 with frame } := by
      have hstore' : m.frame.store? slot.offset (.object m.heap.length) = some frame := hnumber ▸ hstore
      simp [Machine.allocate, Machine.write?, Slot.operand, hstore']
    have hstep := Machine.step?_allocate (P := P) hplaced.settled.1 rfl rfl hsite hwrite
    exact ⟨_, .of_step hstep, rfl,
      hagrees.define (x := ⟨.object, .object config.memory.heap.length⟩) hslot
        (L.slot_result hi rfl hslot) hstore hself _⟩

theorem Agrees.simulated_loadField (h : Agrees L r config m) {source : BlockId} {t t' : State}
    {dst object : ValueId} {ty : Ty} {field : Nat}
    (hi : Instr.loadField dst ty object field ∈ f.instructions)
    (hemits : Emits L.env source t (.loadField dst ty object field) lines t')
    (hplaced : Placed L.starts fragment.code m.pc lines) {a : Value} {w : Datum}
    (ha : config.values object = some a) (hw : config.memory.field? field a.word = some w) :
    Simulated L P r m (config.define dst ⟨ty, w⟩) (m.pc + lines.length) := by
  have hself := L.not_selfCompared hi rfl (by intros; exact Instr.noConfusion)
  cases hemits with
  | @loadField _ _ _ _ base slot haccess hslot =>
    refine h.simulated_move hplaced hslot (L.slot_result hi rfl hslot) hself ?_
    have hbase := (h.word ha haccess.slot).2
    cases hdatum : a.word with
    | object number =>
      rw [hdatum] at hw hbase
      obtain ⟨o, ho, hfield⟩ := Option.bind_eq_some_iff.mp hw
      obtain ⟨o', ho', hword⟩ := h.memory.heap.word ho hfield
      simp [Machine.read?, Machine.deref?, hbase, ho', hword]
    | _ => rw [hdatum] at hw; cases hw

theorem Agrees.simulated_storeField (h : Agrees L r config m) {source : BlockId} {t t' : State}
    {object value : ValueId} {field : Nat}
    (hemits : Emits L.env source t (.storeField object field value) lines t')
    (hplaced : Placed L.starts fragment.code m.pc lines) {a b : Value} {memory : Memory}
    (ha : config.values object = some a) (hb : config.values value = some b)
    (hmemory : config.memory.setField? field b.word a.word = some memory) :
    Simulated L P r m (config.advance memory) (m.pc + lines.length) := by
  cases hemits with
  | @storeField _ _ _ base slot hslot haccess =>
    have hbase := (h.word ha haccess.slot).2
    cases hdatum : a.word with
    | object number =>
      rw [hdatum] at hmemory hbase
      obtain ⟨o, ho, hset⟩ := Option.bind_eq_some_iff.mp hmemory
      by_cases hfield : field < o.length
      · rw [if_pos hfield, Option.some.injEq] at hset
        subst hset
        obtain ⟨o', o'', ho', hstore, hheap⟩ := h.memory.heap.set ho hfield b.word
        have hwrite : m.write? b.word (.fpIndirect base.offset (wordOffset 0 field))
            = some { m with heap := m.heap.set number o'' } := by
          simp [Machine.write?, Machine.storeThrough?, hbase, ho', hstore]
        exact ⟨_, .of_step (moveLine_step hplaced (h.word hb hslot).2 hwrite), rfl,
          (h.setHeap hheap _).move config.block (config.position + 1) _⟩
      · rw [if_neg hfield] at hset
        cases hset
    | _ => rw [hdatum] at hmemory; cases hmemory

/-! ## Code that goes elsewhere -/

/-- The moves of an edge, and the jump to its target. -/
theorem Agrees.simulated_edge (h : Agrees L r config m) {t t' : State} {target : BlockId}
    {block : Ssa.Block} {moves : List Move} {rest : List Line} {config' : Config}
    (hblock : f.block? target = some block)
    (hedge : EdgeMoves L.env config.block block.instructions moves) (hmoved : Moved moves t lines t')
    (hearlier : L.first.Grows t) (hlater : t'.Grows L.final)
    (hplaced : Placed L.starts fragment.code m.pc (lines ++ jumpLine target :: rest))
    (henter : config.enter? f target = some config') :
    Simulated L P r m config' (L.address config'.block config'.position) := by
  simp only [Config.enter?, hblock, Option.bind_eq_bind, Option.bind_some, Option.bind_eq_some_iff,
    Option.pure_def, Option.some.injEq] at henter
  obtain ⟨arriving, harriving, rfl⟩ := henter
  have hslots : ∀ {v w a b}, L.env.slots.lookup v = some a → L.env.slots.lookup w = some b →
      a.offset = b.offset → v = w := L.slot_injective
  have hwords : ∀ mv ∈ moves, FrameWord t.frame.words.length mv.src ∧
      FrameWord t.frame.words.length mv.dst := by
    intro mv hmv
    obtain ⟨_, _, _, _, d, s, -, hphi, -, rfl⟩ := hedge.phi_of_move hmv
    have hle : L.frame.words.length ≤ t.frame.words.length := hearlier.frame.length_le
    exact ⟨(L.slot_frameWord hphi.src_slot).mono hle, (L.slot_frameWord hphi.dst_slot).mono hle⟩
  have hnodup := hedge.nodup_dst (L.wellTyped.nodup_destinations hblock) hslots
  have hlen : 8 + t'.frame.words.length ≤ m.frame.length := by
    have hle := hlater.frame.length_le
    rw [h.frame, L.fragment_frame]
    omega
  obtain ⟨frame, hreach, hcarried⟩ := hmoved.run (P := P) hplaced hwords hnodup hlen
  have hsize : L.frame.size ≤ t.frame.size := by
    have hle : L.frame.words.length ≤ t.frame.words.length := hearlier.frame.length_le
    unfold Frame.size wordOffset wordBytes
    omega
  have hstart := L.getElem?_starts (List.getElem?_eq_some_iff.mp hblock).1
  have hjump := (Placed.block (placed_append.mp hplaced).2 hstart).1
  have hstep : Machine.step? P fragment { m with pc := m.pc + lines.length, frame }
      = some { m with pc := L.blockAddress target.index, frame } :=
    Machine.step?_jump hjump rfl rfl
  exact ⟨_, hreach.trans (Machine.Reaches.of_step hstep), (L.address_zero target).symm,
    h.enter hblock harriving hedge hcarried hsize _⟩

theorem Agrees.simulated_branch (h : Agrees L r config m) {t t' : State} {condition : ValueId}
    {thenBlock elseBlock : BlockId} {taken : Bool} {a : Value} {config' : Config}
    (hemits : Emits L.env config.block t (.branch condition thenBlock elseBlock) lines t')
    (hearlier : L.first.Grows t) (hlater : t'.Grows L.final)
    (hplaced : Placed L.starts fragment.code m.pc lines) (ha : config.values condition = some a)
    (htaken : P.compare? .notEqual .word a.word (.int 0) = some taken)
    (henter : config.enter? f (if taken then thenBlock else elseBlock) = some config') :
    Simulated L P r m config' (L.address config'.block config'.position) := by
  cases hemits with
  | @branchPlain _ _ _ slot yes no hslot hbool hyes hno hthen helse =>
    have hword := (h.word ha hslot).2
    have hstart := L.getElem?_starts (List.getElem?_eq_some_iff.mp hyes).1
    obtain ⟨hcode, hrest⟩ := Placed.block hplaced hstart
    cases taken with
    | true =>
      -- no word has to be moved: the branch itself goes to the block
      simp only [if_true, Config.enter?, Option.bind_eq_bind, Option.bind_eq_some_iff,
        Option.pure_def, Option.some.injEq] at henter
      obtain ⟨block, hblock, arriving, harriving, rfl⟩ := henter
      cases hyes.symm.trans hblock
      have hbranch : m.step? P fragment = some { m with pc := L.blockAddress thenBlock.index } :=
        Machine.step?_branch_taken hcode rfl hword rfl htaken rfl
      have hcarried : Carried [] (L.frame.size ≤ ·) m.frame m.frame := ⟨rfl, by simp, by simp⟩
      exact ⟨_, .of_step hbranch, (L.address_zero thenBlock).symm,
        h.enter hyes harriving hthen hcarried (Int.le_refl _) _⟩
    | false =>
      have hbranch : m.step? P fragment = some { m with pc := m.pc + 1 } :=
        Machine.step?_branch_passed hcode rfl hword rfl htaken
      obtain ⟨m', hreach, hpc, hagrees⟩ := (h.move config.block config.position (m.pc + 1)).simulated_edge
        (P := P) hno helse (.direct rfl) hearlier hlater hrest henter
      exact ⟨m', .step hbranch hreach, hpc, hagrees⟩
  | @branchMoving _ _ _ slot yes no thenMoves elseMoves thenLines elseLines u _ hslot hbool hyes hno hthen
      helse helseMoved hthenMoved =>
    have hword := (h.word ha hslot).2
    simp only [List.cons_append, List.append_assoc] at hplaced
    obtain ⟨hcode, hrest⟩ := Placed.ahead hplaced
    cases taken with
    | true =>
      have hbranch : m.step? P fragment = some { m with pc := m.pc + (elseLines.length + 2) } :=
        Machine.step?_branch_taken hcode rfl hword rfl htaken rfl
      have hpc : m.pc + 1 + (elseLines ++ [jumpLine elseBlock]).length
          = m.pc + (elseLines.length + 2) := by
        rw [List.length_append, List.length_singleton]; omega
      have hthere : Placed L.starts fragment.code (m.pc + (elseLines.length + 2))
          (thenLines ++ jumpLine thenBlock :: []) := by
        rw [← hpc]
        refine (placed_append.mp ?_).2
        simpa using hrest
      obtain ⟨m', hreach, hpc', hagrees⟩ :=
        (h.move config.block config.position (m.pc + (elseLines.length + 2))).simulated_edge (P := P)
          hyes hthen hthenMoved (hearlier.trans helseMoved.grows) hlater hthere henter
      exact ⟨m', .step hbranch hreach, hpc', hagrees⟩
    | false =>
      have hbranch : m.step? P fragment = some { m with pc := m.pc + 1 } :=
        Machine.step?_branch_passed hcode rfl hword rfl htaken
      obtain ⟨m', hreach, hpc', hagrees⟩ :=
        (h.move config.block config.position (m.pc + 1)).simulated_edge (P := P)
          hno helse helseMoved hearlier (hthenMoved.grows.trans hlater) hrest henter
      exact ⟨m', .step hbranch hreach, hpc', hagrees⟩

/-! ## Steps and the end -/

/-- The code of the instruction where control is. -/
theorem Lowering.current (L : Lowering f c fragment c') {i : Instr} (hi : config.instr? f = some i) :
    i ∈ f.instructions ∧ ∃ lines t t', Emits L.env config.block t i lines t' ∧ L.first.Grows t ∧
      t'.Grows L.final ∧
      Placed L.starts fragment.code (L.address config.block config.position) lines ∧
      L.address config.block (config.position + 1)
        = L.address config.block config.position + lines.length := by
  obtain ⟨block, hblock, hk⟩ := Option.bind_eq_some_iff.mp hi
  exact ⟨Function.mem_instructions hblock (List.mem_of_getElem? hk), L.instr hblock hk⟩

/-- **One step of the function** is simulated by the code of the instruction. -/
theorem Agrees.simulated_step (h : Agrees L r config m)
    (hpc : m.pc = L.address config.block config.position) {config' : Config}
    (hstep : config.step? P c'.declared f = some (.next config')) :
    Simulated L P r m config' (L.address config'.block config'.position) := by
  obtain ⟨i, hi, hexecute⟩ := Option.bind_eq_some_iff.mp hstep
  obtain ⟨hmem, lines, t, t', hemits, hearlier, hlater, hplaced, hnext⟩ := L.current hi
  rw [← hpc] at hplaced hnext
  -- after code that goes straight on, control is at the next instruction
  have hstraight {x : Config} (hblock : x.block = config.block)
      (hposition : x.position = config.position + 1)
      (hsim : Simulated L P r m x (m.pc + lines.length)) :
      Simulated L P r m x (L.address x.block x.position) := by
    rw [hblock, hposition, hnext]; exact hsim
  cases i with
  | const dst value =>
    cases hexecute
    exact hstraight rfl rfl (h.simulated_const hmem hemits hlater hplaced)
  | math dst op lhs rhs =>
    simp only [Config.execute?, Option.bind_eq_bind, Option.bind_eq_some_iff, Option.pure_def,
      Option.some.injEq, Progress.next.injEq] at hexecute
    obtain ⟨a, ha, b, hb, ty, hty, kind, hkind, w, hw, rfl⟩ := hexecute
    exact hstraight rfl rfl (h.simulated_math hmem hemits hplaced ha hb hty hkind hw)
  | compare dst op lhs rhs =>
    simp only [Config.execute?, Option.bind_eq_bind, Option.bind_eq_some_iff, Option.pure_def,
      Option.some.injEq, Progress.next.injEq] at hexecute
    obtain ⟨a, ha, b, hb, ty, hty, kind, hkind, holds, hholds, rfl⟩ := hexecute
    exact hstraight rfl rfl (h.simulated_compare hmem hemits hplaced ha hb hty hkind hholds)
  | phi dst ty incoming =>
    cases hexecute
    cases hemits
    exact hstraight rfl rfl ⟨m, .refl, rfl, h.move config.block (config.position + 1) m.pc⟩
  | loadGlobal dst name =>
    simp only [Config.execute?, Option.bind_eq_bind, Option.bind_eq_some_iff, Option.pure_def,
      Option.some.injEq, Progress.next.injEq] at hexecute
    obtain ⟨ty, hty, rfl⟩ := hexecute
    exact hstraight rfl rfl (h.simulated_loadGlobal hmem hemits hearlier hlater hplaced hty)
  | storeGlobal name value =>
    simp only [Config.execute?, Option.bind_eq_bind, Option.bind_eq_some_iff, Option.pure_def,
      Option.some.injEq, Progress.next.injEq] at hexecute
    obtain ⟨ty, hty, a, ha, rfl⟩ := hexecute
    exact hstraight rfl rfl (h.simulated_storeGlobal hemits hlater hplaced ha)
  | new dst fields =>
    cases hexecute
    exact hstraight rfl rfl (h.simulated_new hmem hemits hlater hplaced)
  | loadField dst ty object field =>
    simp only [Config.execute?, Option.bind_eq_bind, Option.bind_eq_some_iff, Option.pure_def,
      Option.some.injEq, Progress.next.injEq] at hexecute
    obtain ⟨a, ha, w, hw, rfl⟩ := hexecute
    exact hstraight rfl rfl (h.simulated_loadField hmem hemits hplaced ha hw)
  | storeField object field value =>
    simp only [Config.execute?, Option.bind_eq_bind, Option.bind_eq_some_iff, Option.pure_def,
      Option.some.injEq, Progress.next.injEq] at hexecute
    obtain ⟨a, ha, b, hb, memory, hmemory, rfl⟩ := hexecute
    exact hstraight rfl rfl (h.simulated_storeField hemits hplaced ha hb hmemory)
  | call dst callee arguments => cases hexecute
  | callNative dst function arguments => cases hexecute
  | jump target =>
    simp only [Config.execute?, Option.bind_eq_bind, Option.bind_eq_some_iff, Option.pure_def,
      Option.some.injEq, Progress.next.injEq] at hexecute
    obtain ⟨_, henter, rfl⟩ := hexecute
    cases hemits with
    | jump hblock hedge hmoved =>
      exact h.simulated_edge hblock hedge hmoved hearlier hlater hplaced henter
  | branch condition thenBlock elseBlock =>
    simp only [Config.execute?, Option.bind_eq_bind, Option.bind_eq_some_iff, Option.pure_def,
      Option.some.injEq, Progress.next.injEq] at hexecute
    obtain ⟨a, ha, taken, htaken, _, henter, rfl⟩ := hexecute
    exact h.simulated_branch hemits hearlier hlater hplaced ha htaken henter
  | ret value =>
    cases value with
    | none => cases hexecute
    | some value =>
      simp only [Config.execute?, Option.bind_eq_bind, Option.bind_eq_some_iff, Option.pure_def,
        Option.some.injEq, reduceCtorEq, and_false, exists_false] at hexecute

/-- **The end of the function** is simulated by the end of its code, with the result where the caller
wants it. -/
theorem Agrees.simulated_return (h : Agrees L r config m)
    (hpc : m.pc = L.address config.block config.position) {w : Option Datum} {memory : Memory}
    (hstep : config.step? P c'.declared f = some (.returned w memory)) :
    ∃ m', m.Reaches P fragment m' ∧ m'.Stopped fragment ∧ m'.result = w.or r ∧
      MemoryRepresents c' memory m' := by
  obtain ⟨i, hi, hexecute⟩ := Option.bind_eq_some_iff.mp hstep
  obtain ⟨-, lines, t, t', hemits, -, -, hplaced, -⟩ := L.current hi
  rw [← hpc] at hplaced
  cases i with
  | ret value =>
    cases value with
    | none =>
      cases hexecute
      cases hemits with
      | retNone hresult => exact ⟨m, .refl, ⟨_, hplaced.settled.1, rfl⟩, h.result, h.memory⟩
    | some value =>
      simp only [Config.execute?, Option.bind_eq_bind, Option.bind_eq_some_iff, Option.pure_def,
        Option.some.injEq, Progress.returned.injEq] at hexecute
      obtain ⟨a, ha, rfl, rfl⟩ := hexecute
      cases hemits with
      | retValue hresult hslot hsame =>
        have haddress := h.returnAddress (Option.isSome_iff_exists.mpr ⟨_, hresult⟩)
        have hwrite : m.write? a.word (.fpIndirect returnSlot 0)
            = some { m with result := some a.word } := by
          simp [Machine.write?, Machine.storeThrough?, haddress]
        have hmove := moveLine_step (P := P) hplaced (h.word ha hslot).2 hwrite
        exact ⟨_, .of_step hmove, ⟨_, hplaced.settled.2.settled.1, rfl⟩, rfl,
          h.memory.globals, h.memory.heap⟩
  | const dst value => cases hexecute
  | phi dst ty incoming => cases hexecute
  | new dst fields => cases hexecute
  | call dst callee arguments => cases hexecute
  | callNative dst function arguments => cases hexecute
  | _ =>
    simp only [Config.execute?, Option.bind_eq_bind, Option.bind_eq_some_iff, Option.pure_def,
      Option.some.injEq, reduceCtorEq, and_false, exists_false] at hexecute

/-- **A run of the function** is simulated step by step. -/
theorem Agrees.simulated_run {run : Nat → Config} {n : Nat} (h : Agrees L r (run 0) m)
    (hpc : m.pc = L.address (run 0).block (run 0).position)
    (hrun : ∀ k < n, (run k).step? P c'.declared f = some (.next (run (k + 1)))) :
    ∃ trace : Nat → Machine, trace 0 = m ∧
      (∀ k < n, (trace k).Reaches P fragment (trace (k + 1))) ∧
      ∀ k ≤ n, (trace k).pc = L.address (run k).block (run k).position ∧
        Agrees L r (run k) (trace k) := by
  induction n with
  | zero =>
    refine ⟨fun _ => m, rfl, fun k hk => absurd hk (Nat.not_lt_zero k), fun k hk => ?_⟩
    rw [Nat.le_zero.mp hk]
    exact ⟨hpc, h⟩
  | succ n ih =>
    obtain ⟨trace, hstart, hreaches, hagrees⟩ := ih fun k hk => hrun k (Nat.lt_succ_of_lt hk)
    obtain ⟨hpc', hagrees'⟩ := hagrees n (Nat.le_refl n)
    obtain ⟨m', hreach, hpc'', hagrees''⟩ := hagrees'.simulated_step hpc' (hrun n (Nat.lt_succ_self n))
    -- the trace so far, and the new state after it
    refine ⟨fun k => if k = n + 1 then m' else trace k, ?_, ?_, ?_⟩
    · simp only [if_neg (Nat.succ_ne_zero n).symm]; exact hstart
    · intro k hk
      have hkn : k ≠ n + 1 := Nat.ne_of_lt hk
      by_cases hlast : k = n
      · subst hlast
        simp only [if_neg hkn, if_true]
        exact hreach
      · have hlt : k < n := by omega
        have hkn' : k + 1 ≠ n + 1 := by omega
        simp only [if_neg hkn, if_neg hkn']
        exact hreaches k hlt
    · intro k hk
      by_cases hlast : k = n + 1
      · subst hlast
        simp only [if_true]
        exact ⟨hpc'', hagrees''⟩
      · simp only [if_neg hlast]
        exact hagrees k (by omega)

end Instructions

end DisBackend
