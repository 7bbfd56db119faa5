import DisBackend.Proofs.Lowering.Moves

/-!
# `Proofs.Lowering.Representation` — states of the machine that stand for states of a function

Every value that is bound lies in its word of the frame, every global in its word of the module data, and
every object in an object of the machine with the same number, which may have words behind the fields.

## Contents

* `HeapRepresents`, `MemoryRepresents` — objects and globals;
* `Context.Loaded` — module data as the loader leaves it;
* `Agrees` — the invariant that lowered code keeps;
* `Agrees.define`, `Agrees.setGlobal`, `Agrees.setHeap`, `Agrees.enter` — how it is kept.
-/

namespace DisBackend

open Ssa (BlockId Config Constant Function Instr Memory PhiEdge Ty Value ValueId)

/-! ## Objects -/

/-- Every object of `heap` starts the object of `heap'` with the same number. -/
structure HeapRepresents (heap heap' : List Area) : Prop where
  length : heap'.length = heap.length
  object : ∀ {n : Nat} {o : Area}, heap[n]? = some o → ∃ o', heap'[n]? = some o' ∧ o <+: o'

namespace HeapRepresents

variable {heap heap' : List Area}

theorem refl (heap : List Area) : HeapRepresents heap heap :=
  ⟨rfl, fun h => ⟨_, h, List.prefix_rfl⟩⟩

/-- A field is the word of its number. -/
theorem word (h : HeapRepresents heap heap') {n field : Nat} {o : Area} {w : Datum}
    (ho : heap[n]? = some o) (hfield : o[field]? = some w) :
    ∃ o', heap'[n]? = some o' ∧ o'.word? (wordOffset 0 field) = some w := by
  obtain ⟨o', ho', hprefix⟩ := h.object ho
  exact ⟨o', ho', by rw [Area.word?_wordOffset]; exact getElem?_of_prefix hprefix hfield⟩

/-- A field can be changed on both sides. -/
theorem set (h : HeapRepresents heap heap') {n field : Nat} {o : Area} (ho : heap[n]? = some o)
    (hfield : field < o.length) (w : Datum) :
    ∃ o' o'', heap'[n]? = some o' ∧ o'.store? (wordOffset 0 field) w = some o'' ∧
      HeapRepresents (heap.set n (o.set field w)) (heap'.set n o'') := by
  obtain ⟨o', ho', rest, rfl⟩ := h.object ho
  have hlt : field < (o ++ rest).length := by rw [List.length_append]; omega
  refine ⟨o ++ rest, _, ho', Area.store?_wordOffset hlt w, ?_, ?_⟩
  · rw [List.length_set, List.length_set, h.length]
  · intro k x hx
    by_cases hk : n = k
    · subst hk
      have hn : n < heap.length := (List.getElem?_eq_some_iff.mp ho).1
      rw [List.getElem?_set_self hn, Option.some.injEq] at hx
      subst hx
      refine ⟨_, List.getElem?_set_self (by rw [h.length]; exact hn), rest, ?_⟩
      rw [List.set_append_left _ _ hfield]
    · rw [List.getElem?_set_ne hk] at hx ⊢
      exact h.object hx

/-- A new object on both sides. -/
theorem append (h : HeapRepresents heap heap') {o o' : Area} (ho : o <+: o') :
    HeapRepresents (heap ++ [o]) (heap' ++ [o']) := by
  refine ⟨by simp [h.length], ?_⟩
  intro n x hx
  by_cases hn : n < heap.length
  · rw [List.getElem?_append_left hn] at hx
    obtain ⟨x', hx', hprefix⟩ := h.object hx
    exact ⟨x', by rw [List.getElem?_append_left (by rw [h.length]; exact hn)]; exact hx', hprefix⟩
  · have hle : heap.length ≤ n := Nat.le_of_not_lt hn
    rw [List.getElem?_append_right hle] at hx
    obtain ⟨hlast, rfl⟩ := List.getElem?_eq_some_iff.mp hx
    have hzero : n - heap.length = 0 := by simpa using hlast
    refine ⟨o', ?_, by simpa [hzero] using ho⟩
    rw [List.getElem?_append_right (by rw [h.length]; exact hle), h.length, hzero]
    rfl

end HeapRepresents

/-- The types of the globals of a module. -/
def Context.declared (c : Context) (name : String) : Option Ty := (c.global? name).map GlobalSlot.ty

/-- The module data and the objects of the machine stand for those of the function. -/
structure MemoryRepresents (c : Context) (memory : Memory) (m : Machine) : Prop where
  globals : ∀ {name slot}, c.global? name = some slot →
    m.data.word? slot.offset = some (memory.globals name)
  heap : HeapRepresents memory.heap m.heap

/-! ## Module data -/

/-- The words that a data item of whole words stores. -/
def DataItem.contents : DataItem → List Datum
  | .string _ value => [.string value]
  | .reals _ values => values.map .real
  | .longs _ values => values.map .int
  | _ => []

/-- The data items of a context are in place. -/
def Context.Loaded (c : Context) (data : Area) : Prop :=
  ∀ item ∈ c.items, ∀ k w, item.contents[k]? = some w →
    data.word? (wordOffset item.offset k) = some w

/-- The item of a cell stores one word, in the cell. -/
theorem Cell.contents_item? {cell : Cell} {offset : Int} {item : DataItem}
    (h : cell.item? offset = some item) : item.offset = offset ∧ ∃ w, item.contents = [w] := by
  cases cell with
  | handle => cases h
  | global _ _ => cases h
  | string value => cases h; exact ⟨rfl, _, rfl⟩
  | long value => cases h; exact ⟨rfl, _, rfl⟩
  | real value => cases h; exact ⟨rfl, _, rfl⟩

/-- The cell of a constant stores the constant. -/
theorem item?_of_constant {value : Constant} {cell : Cell} (h : value.cell? = some cell)
    (offset : Int) : ∃ item, cell.item? offset = some item ∧ item.contents = [value.value.word] := by
  cases value with
  | int n =>
    by_cases hnear : Encodable n.toInt
    · rw [Constant.cell?, if_pos hnear] at h; cases h
    · rw [Constant.cell?, if_neg hnear] at h; cases h; exact ⟨_, rfl, rfl⟩
  | real r => cases h; exact ⟨_, rfl, rfl⟩
  | bool b => cases h
  | string s => cases h; exact ⟨_, rfl, rfl⟩

namespace Context.Loaded

variable {c : Context} {data : Area}

/-- A constant with a cell lies in its cell. -/
theorem constant (h : c.Loaded data) {value : Constant} {cell : Cell} {k : Nat}
    (hvalue : value.cell? = some cell) (hk : c.cells[k]? = some cell) :
    data.word? (wordOffset 0 k) = some value.value.word := by
  obtain ⟨item, hitem, hcontents⟩ := item?_of_constant hvalue (wordOffset 0 k)
  have hword := h item (item_of_cell hk hitem) 0 _ (by rw [hcontents]; rfl)
  rw [(Cell.contents_item? hitem).1] at hword
  simpa [wordOffset] using hword

/-- Items lie in other cells than globals. -/
theorem store (h : c.Loaded data) {name : String} {slot : GlobalSlot} {w : Datum} {data' : Area}
    (hglobal : c.global? name = some slot) (hstore : data.store? slot.offset w = some data') :
    c.Loaded data' := by
  intro item hitem k x hx
  have hcell := hitem
  unfold Context.items at hcell
  obtain ⟨⟨cell, n⟩, hzip, hcell⟩ := List.mem_filterMap.mp hcell
  have hn : c.cells[n]? = some cell := by simpa [List.mem_zipIdx_iff_getElem?] using hzip
  obtain ⟨hoffset, y, hcontents⟩ := Cell.contents_item? hcell
  obtain ⟨g, hg, hslot⟩ := Context.cell_of_global? hglobal
  have hk : k = 0 := by
    have hlt := (List.getElem?_eq_some_iff.mp hx).1
    rw [hcontents] at hlt
    simpa using hlt
  subst hk
  have hne : wordOffset item.offset 0 ≠ slot.offset := by
    intro he
    have hng : wordOffset 0 n = wordOffset 0 g := by
      rw [← hoffset, ← hslot, ← he]; simp [wordOffset]
    rw [wordOffset_injective hng, hg] at hn
    cases hn
    cases hcell
  rw [Area.word?_store?_of_ne hstore hne]
  exact h item hitem 0 x hx

end Context.Loaded

/-- Different globals lie in different words. -/
theorem Context.global?_injective {c : Context} {name name' : String} {slot slot' : GlobalSlot}
    (h : c.global? name = some slot) (h' : c.global? name' = some slot')
    (hoffset : slot.offset = slot'.offset) : name = name' := by
  obtain ⟨k, hk, ho⟩ := Context.cell_of_global? h
  obtain ⟨k', hk', ho'⟩ := Context.cell_of_global? h'
  have hkk : k = k' := wordOffset_injective (ho.symm.trans (hoffset.trans ho'))
  rw [hkk, hk'] at hk
  simp only [Option.some.injEq, Cell.global.injEq] at hk
  exact hk.1.symm

/-! ## The invariant -/

/-- `v` is the result of a comparison with itself. Only that comparison binds `v`, so that it is never
executed; its code would destroy the operand before reading it. -/
def SelfCompared (f : Function) (v : ValueId) : Prop :=
  ∃ op lhs rhs, Instr.compare v op lhs rhs ∈ f.instructions ∧ (v = lhs ∨ v = rhs)

section Invariant

variable {f : Function} {c c' : Context} {fragment : Fragment} {L : Lowering f c fragment c'}

/-- The machine stands for the function, wherever control is. Its caller was given `r` so far. -/
structure Agrees (L : Lowering f c fragment c') (r : Option Datum) (config : Config) (m : Machine) :
    Prop where
  values : ∀ {v x}, config.values v = some x → ∃ slot, L.slots.lookup v = some slot ∧
    slot.ty = x.ty ∧ m.frame.word? slot.offset = some x.word
  memory : MemoryRepresents c' config.memory m
  loaded : c'.Loaded m.data
  frame : m.frame.length = 8 + fragment.frame.words.length
  returnAddress : f.result.isSome → m.frame.word? returnSlot = some .result
  result : m.result = r
  unbound : ∀ {v}, SelfCompared f v → config.values v = none

variable {r : Option Datum} {config : Config} {m : Machine}

theorem Lowering.length_frame_le (L : Lowering f c fragment c') :
    L.frame.words.length ≤ fragment.frame.words.length := by
  rw [L.fragment_frame]
  exact L.grows.frame.length_le

/-- A phi whose value already lies in its word is not moved to: a move to this word would be that of the
same phi, which has none. -/
theorem Lowering.not_moved_of_own (L : Lowering f c fragment c') {source target : BlockId}
    {block : Ssa.Block} {moves : List Move} (hblock : f.block? target = some block)
    (hedge : EdgeMoves L.env source block.instructions moves) {v : ValueId} {ty : Ty}
    {incoming : List Ssa.PhiEdge} {edge : Ssa.PhiEdge} {d s : Slot}
    (hphi : Instr.phi v ty incoming ∈ block.instructions)
    (hslots : PhiSlots L.env source v incoming edge d s) (hown : s.offset = d.offset) :
    ∀ mv ∈ moves, mv.dst ≠ d.offset := by
  intro mv hmv ho
  obtain ⟨w, _, _, _, d', s', hphi', hslots', hne, rfl⟩ := hedge.phi_of_move hmv
  have hwv : w = v := L.slot_injective hslots'.dst_slot hslots.dst_slot ho
  subst hwv
  have he := L.wellTyped.destination_unique (Function.mem_instructions hblock hphi')
    (Function.mem_instructions hblock hphi) rfl rfl
  cases he
  have hedges := hslots'.edge_found.symm.trans hslots.edge_found
  cases hedges
  have hsrc := hslots'.src_slot.symm.trans hslots.src_slot
  cases hsrc
  exact hne (hown.trans ho.symm)

namespace Agrees

/-- The word of a value that is known to lie in a given slot. -/
theorem word (h : Agrees L r config m) {v : ValueId} {x : Value} {slot : Slot}
    (hv : config.values v = some x) (hslot : L.slots.lookup v = some slot) :
    slot.ty = x.ty ∧ m.frame.word? slot.offset = some x.word := by
  obtain ⟨slot', hslot', hword⟩ := h.values hv
  rw [hslot] at hslot'
  cases hslot'
  exact hword

theorem readable (h : Agrees L r config m) {v : ValueId} {slot : Slot}
    (hslot : L.slots.lookup v = some slot) : (m.frame.word? slot.offset).isSome :=
  ((L.slot_frameWord hslot).mono L.length_frame_le).readable (Nat.le_of_eq h.frame.symm)

/-- A slot can be written. -/
theorem exists_store (h : Agrees L r config m) {v : ValueId} {slot : Slot}
    (hslot : L.slots.lookup v = some slot) (w : Datum) :
    ∃ frame : Area, m.frame.store? slot.offset w = some frame :=
  Area.exists_store? (h.readable hslot) w

/-- It does not matter where control is. -/
theorem move (h : Agrees L r config m) (block : BlockId) (position pc : Nat) :
    Agrees L r { config with block, position } { m with pc } :=
  ⟨h.values, ⟨h.memory.globals, h.memory.heap⟩, h.loaded, h.frame, h.returnAddress, h.result,
    h.unbound⟩

/-- **A value is bound** and its word is written. -/
theorem define (h : Agrees L r config m) {dst : ValueId} {x : Value} {slot : Slot} {frame : Area}
    (hslot : L.slots.lookup dst = some slot) (hty : slot.ty = x.ty)
    (hstore : m.frame.store? slot.offset x.word = some frame) (hself : ¬ SelfCompared f dst)
    (pc : Nat) : Agrees L r (config.define dst x) { m with pc, frame } where
  values {v y} hv := by
    by_cases he : v = dst
    · subst he
      simp only [Config.define, if_true, Option.some.injEq] at hv
      subst hv
      exact ⟨slot, hslot, hty, Area.word?_store?_self hstore⟩
    · simp only [Config.define, if_neg he] at hv
      obtain ⟨slot', hslot', hty', hword⟩ := h.values hv
      have hne : slot'.offset ≠ slot.offset := fun ho => he (L.slot_injective hslot' hslot ho)
      exact ⟨slot', hslot', hty', by rw [Area.word?_store?_of_ne hstore hne]; exact hword⟩
  memory := ⟨h.memory.globals, h.memory.heap⟩
  loaded := h.loaded
  frame := (Area.length_store? hstore).trans h.frame
  returnAddress hresult := by
    rw [Area.word?_store?_of_ne hstore (L.slot_frameWord hslot).ne_returnSlot]
    exact h.returnAddress hresult
  result := h.result
  unbound {v} hv := by
    have hne : v ≠ dst := fun he => hself (he ▸ hv)
    simp only [Config.define, if_neg hne]
    exact h.unbound hv

/-- A value that has just been bound is bound again. -/
theorem redefine {dst : ValueId} {x y : Value} (h : Agrees L r (config.define dst x) m) {slot : Slot}
    {frame : Area} (hslot : L.slots.lookup dst = some slot) (hty : slot.ty = y.ty)
    (hstore : m.frame.store? slot.offset y.word = some frame) (hself : ¬ SelfCompared f dst)
    (pc : Nat) : Agrees L r (config.define dst y) { m with pc, frame } := by
  have hagain := (h.define hslot hty hstore hself pc).move config.block (config.position + 1) pc
  have hvalues : ((config.define dst x).define dst y).values = (config.define dst y).values := by
    funext v
    by_cases he : v = dst <;> simp [Config.define, he]
  simp only [hvalues] at hagain
  exact hagain

/-- **A global is written.** -/
theorem setGlobal (h : Agrees L r config m) {name : String} {slot : GlobalSlot} {w : Datum}
    {data : Area} (hglobal : c'.global? name = some slot)
    (hstore : m.data.store? slot.offset w = some data) (pc : Nat) :
    Agrees L r (config.advance (config.memory.setGlobal name w)) { m with pc, data } where
  values := h.values
  memory := by
    refine ⟨fun {name' slot'} hglobal' => ?_, h.memory.heap⟩
    by_cases he : name' = name
    · subst he
      rw [hglobal] at hglobal'
      cases hglobal'
      rw [Area.word?_store?_self hstore]
      simp [Config.advance, Memory.setGlobal]
    · have hne : slot'.offset ≠ slot.offset := fun ho =>
        he (Context.global?_injective hglobal' hglobal ho)
      rw [Area.word?_store?_of_ne hstore hne, h.memory.globals hglobal']
      simp [Config.advance, Memory.setGlobal, he]
  loaded := h.loaded.store hglobal hstore
  frame := h.frame
  returnAddress := h.returnAddress
  result := h.result
  unbound := h.unbound

/-- The objects change, on both sides. -/
theorem setHeap (h : Agrees L r config m) {heap heap' : List Area} (hheap : HeapRepresents heap heap')
    (pc : Nat) :
    Agrees L r { config with memory.heap := heap } { m with pc, heap := heap' } :=
  ⟨h.values, ⟨h.memory.globals, hheap⟩, h.loaded, h.frame, h.returnAddress, h.result, h.unbound⟩

/-- **An edge is taken** and the words of the phis are moved. -/
theorem enter (h : Agrees L r config m) {target : BlockId} {block : Ssa.Block} {moves : List Move}
    {arriving : List (ValueId × Value)} {limit : Int} {frame : Area}
    (hblock : f.block? target = some block)
    (harriving : Config.phiValues? config.values config.block block.instructions = some arriving)
    (hedge : EdgeMoves L.env config.block block.instructions moves)
    (hcarried : Carried moves (limit ≤ ·) m.frame frame) (hlimit : L.frame.size ≤ limit) (pc : Nat) :
    Agrees L r ⟨target, 0, fun v => (arriving.lookup v).or (config.values v), config.memory⟩
      { m with pc, frame } where
  values {v x} hv := by
    replace hv : (arriving.lookup v).or (config.values v) = some x := hv
    have hphis := (Ssa.Function.shape_of_shapeFault? L.shape hblock).phis_first
    -- a slot that no move writes to keeps its word
    have hkept {w : ValueId} {slot : Slot} (hslot : L.slots.lookup w = some slot)
        (hother : ∀ mv ∈ moves, mv.dst ≠ slot.offset) :
        frame.word? slot.offset = m.frame.word? slot.offset :=
      hcarried.kept _ (Int.not_le.mpr (Int.lt_of_lt_of_le (L.slot_frameWord hslot).lt hlimit)) hother
    cases hlookup : arriving.lookup v with
    | some y =>
      rw [hlookup, Option.some_or, Option.some.injEq] at hv
      subst hv
      obtain ⟨ty, incoming, edge, hphi, hfound, hbound⟩ := phi_of_phiValues? harriving hlookup
      obtain ⟨edge', d, s, hslots, hmove⟩ := hedge.move_of_phi hphis hphi
      have hsame : edge' = edge := Option.some.inj (hslots.edge_found.symm.trans hfound)
      subst hsame
      obtain ⟨hty, hword⟩ := h.word hbound hslots.src_slot
      refine ⟨d, hslots.dst_slot, hslots.same_type.trans hty, ?_⟩
      rcases hmove with hown | hmem
      · rw [hkept hslots.dst_slot (L.not_moved_of_own hblock hedge hphi hslots hown), ← hown]
        exact hword
      · rw [hcarried.moved _ hmem]
        exact hword
    | none =>
      rw [hlookup, Option.none_or] at hv
      obtain ⟨slot, hslot, hty, hword⟩ := h.values hv
      refine ⟨slot, hslot, hty, ?_⟩
      rw [hkept hslot]
      · exact hword
      · -- only phis are moved to, and all phis are bound
        intro mv hmv ho
        obtain ⟨w, _, _, _, d, _, hphi, hslots, -, rfl⟩ := hedge.phi_of_move hmv
        have hwv : w = v := L.slot_injective hslots.dst_slot hslot ho
        obtain ⟨y, hy⟩ := phiValues?_of_phi harriving hphi
        rw [hwv, hlookup] at hy
        cases hy
  memory := ⟨h.memory.globals, h.memory.heap⟩
  loaded := h.loaded
  frame := hcarried.length.trans h.frame
  returnAddress hresult := by
    have hheader : returnSlot < L.frame.size := by
      have hle := le_wordOffset headerBytes L.frame.words.length
      unfold Frame.size returnSlot headerBytes at *
      omega
    show frame.word? returnSlot = some .result
    rw [hcarried.kept returnSlot (by omega), h.returnAddress hresult]
    intro mv hmv ho
    obtain ⟨_, _, _, _, d, _, -, hslots, -, rfl⟩ := hedge.phi_of_move hmv
    exact (L.slot_frameWord hslots.dst_slot).ne_returnSlot ho.symm
  result := h.result
  unbound {v} hv := by
    have hnone : arriving.lookup v = none := by
      cases hlookup : arriving.lookup v with
      | none => rfl
      | some y =>
        obtain ⟨ty, incoming, edge, hphi, -⟩ := phi_of_phiValues? harriving hlookup
        obtain ⟨op, lhs, rhs, hcompare, -⟩ := hv
        cases L.wellTyped.destination_unique (Function.mem_instructions hblock hphi) hcompare rfl rfl
    show (arriving.lookup v).or (config.values v) = none
    rw [hnone, Option.none_or]
    exact h.unbound hv

end Agrees
end Invariant
end DisBackend
