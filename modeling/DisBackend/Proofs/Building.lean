import DisBackend.Proofs.Faults.Redefinition
import DisBackend.Ssa.Builder

/-!
# `Proofs.Building` — functions that are built have single assignments

A function is built by steps that go to any of its blocks in any order, and a phi gets its edges long after
it was written. What the steps say can be written down as a list of instructions with their blocks and a
list of edges, and nothing in these lists is ever changed. The function is read off from them: a block holds
its instructions in the order of the list, and every phi holds the edges that were added to it. As every new
value is numbered by the builder, each is the result of one instruction.

## Contents

* `Step.instr?`, `Transcript` — what steps say;
* `Builder.Effect` — what a step does;
* `Builder.addBlockEdge?_eq_some` — where an edge is added;
* `Transcript.Describes.step`, `Transcript.Describes.run` — the function is what the transcript says;
* `Program.build_singleAssignment` — the whole.
-/

namespace DisBackend.Ssa

/-! ## What steps say -/

/-- The instruction that a step adds to the current block, if `v` is the next new value. -/
def Step.instr? (v : ValueId) : Step → Option Instr
  | .parameter _ | .createBlock | .switchTo _ | .currentBlock | .addIncoming .. => none
  | .const value => some (.const v value)
  | .math op lhs rhs => some (.math v op lhs rhs)
  | .compare op lhs rhs => some (.compare v op lhs rhs)
  | .phi ty => some (.phi v ty [])
  | .loadGlobal global => some (.loadGlobal v global)
  | .storeGlobal global value => some (.storeGlobal global value)
  | .new fields => some (.new v fields)
  | .loadField ty object field => some (.loadField v ty object field)
  | .storeField object field value => some (.storeField object field value)
  | .call callee arguments => some (.call (some v) callee arguments)
  | .callVoid callee arguments => some (.call none callee arguments)
  | .callNative function arguments => some (.callNative (some v) function arguments)
  | .callNativeVoid function arguments => some (.callNative none function arguments)
  | .jump target => some (.jump target)
  | .branch condition thenBlock elseBlock => some (.branch condition thenBlock elseBlock)
  | .ret value => some (.ret value)

/-- The value that a step gives back, unless it only looks up a parameter. -/
def Step.computed? : Step → Outcome → Option ValueId
  | .parameter _, _ => none
  | _, .value v => some v
  | _, _ => none

/-- The values that steps computed, in order. -/
def returned (steps : List Step) (outcomes : List Outcome) : List ValueId :=
  (steps.zip outcomes).filterMap fun p => p.1.computed? p.2

/-- The values with numbers from `base` on, below `next`. -/
def newValues (base next : Nat) : List ValueId := (List.range' base (next - base)).map ValueId.mk

/-- An instruction with further edges, if it is a phi. -/
def Instr.withEdges (edges : ValueId → List PhiEdge) : Instr → Instr
  | .phi dst ty incoming => .phi dst ty (incoming ++ edges dst)
  | i => i

/-- A block with further edges in its phis. -/
def Block.withEdges (edges : ValueId → List PhiEdge) (b : Block) : Block :=
  ⟨b.instructions.map (Instr.withEdges edges)⟩

/-- What steps said so far. -/
structure Transcript where
  /-- The block that is current. -/
  current : BlockId
  /-- The number of blocks. -/
  count : Nat
  /-- The number of the next new value. -/
  next : Nat
  /-- The instructions that were added, with their blocks. -/
  pushed : List (BlockId × Instr)
  /-- The edges that were added to phis later. -/
  edges : List (ValueId × PhiEdge)

namespace Transcript

/-- Nothing was said: there is one block, and the parameters have their numbers. -/
def start (parameters : Nat) : Transcript := ⟨⟨0⟩, 1, parameters, [], []⟩

/-- Writes down a step. -/
def add (t : Transcript) : Step → Transcript
  | .createBlock => { t with count := t.count + 1 }
  | .switchTo block => { t with current := block }
  | .addIncoming phi edge => { t with edges := t.edges ++ [(phi, edge)] }
  | s =>
    match s.instr? ⟨t.next⟩ with
    | some i =>
      { t with pushed := t.pushed ++ [(t.current, i)], next := t.next + i.destination?.toList.length }
    | none => t

/-- The results of the instructions that were added, in order. -/
def results (t : Transcript) : List ValueId := t.pushed.filterMap fun p => p.2.destination?

/-- The edges that were added to a phi, in order. -/
def edgesTo (t : Transcript) (phi : ValueId) : List PhiEdge :=
  (t.edges.filter (·.1 = phi)).map Prod.snd

/-- A block: the instructions that were added to it, in order, with the edges that were added to them. -/
def block (t : Transcript) (index : Nat) : Block :=
  ⟨(t.pushed.filter (·.1.index = index)).map fun p => p.2.withEdges t.edgesTo⟩

/-- The blocks of the function. -/
def blocks (t : Transcript) : List Block := (List.range t.count).map t.block

end Transcript

/-- What steps for a function with some parameters say. -/
def transcript (parameters : Nat) (steps : List Step) : Transcript :=
  steps.foldl Transcript.add (.start parameters)

/-! ## Edges -/

theorem Instr.destination?_withEdges (edges : ValueId → List PhiEdge) (i : Instr) :
    (i.withEdges edges).destination? = i.destination? := by
  cases i <;> rfl

theorem Instr.withEdges_withEdges (edges more : ValueId → List PhiEdge) (i : Instr) :
    (i.withEdges edges).withEdges more = i.withEdges fun v => edges v ++ more v := by
  cases i with
  | phi dst ty incoming => simp [withEdges]
  | _ => rfl

/-- Without edges for its result, an instruction stays what it is. -/
theorem Instr.withEdges_eq_self {edges : ValueId → List PhiEdge} {i : Instr}
    (h : ∀ v, i.destination? = some v → edges v = []) : i.withEdges edges = i := by
  cases i with
  | phi dst ty incoming => rw [withEdges, h dst rfl, List.append_nil]
  | _ => rfl

namespace Builder

/-- **An edge is added to one phi** of the instructions. -/
theorem addEdge?_eq_some {phi : ValueId} {edge : PhiEdge} {instrs instrs' : List Instr}
    (h : addEdge? phi edge instrs = some instrs') :
    ∃ earlier ty incoming later, instrs = earlier ++ .phi phi ty incoming :: later ∧
      instrs' = earlier ++ .phi phi ty (incoming ++ [edge]) :: later := by
  induction instrs generalizing instrs' with
  | nil => cases h
  | cons i rest ih =>
    have hlater (h : (addEdge? phi edge rest).map (i :: ·) = some instrs') :
        ∃ earlier ty incoming later, i :: rest = earlier ++ .phi phi ty incoming :: later ∧
          instrs' = earlier ++ .phi phi ty (incoming ++ [edge]) :: later := by
      obtain ⟨rest', hrest, rfl⟩ := Option.map_eq_some_iff.mp h
      obtain ⟨earlier, ty, incoming, later, rfl, rfl⟩ := ih hrest
      exact ⟨i :: earlier, ty, incoming, later, rfl, rfl⟩
    cases i with
    | phi dst ty incoming =>
      unfold addEdge? at h
      dsimp only at h
      by_cases hdst : dst = phi
      · rw [if_pos hdst] at h
        cases h
        exact ⟨[], ty, incoming, rest, by rw [hdst]; rfl, by rw [hdst]; rfl⟩
      · rw [if_neg hdst] at h
        exact hlater h
    | _ => exact hlater h

/-- **An edge is added to one phi** of the blocks. -/
theorem addBlockEdge?_eq_some {phi : ValueId} {edge : PhiEdge} {blocks blocks' : List Block}
    (h : addBlockEdge? phi edge blocks = some blocks') :
    ∃ before earlier ty incoming later after,
      blocks = before ++ ⟨earlier ++ .phi phi ty incoming :: later⟩ :: after ∧
      blocks' = before ++ ⟨earlier ++ .phi phi ty (incoming ++ [edge]) :: later⟩ :: after := by
  induction blocks generalizing blocks' with
  | nil => cases h
  | cons block rest ih =>
    unfold addBlockEdge? at h
    cases hedge : addEdge? phi edge block.instructions with
    | some instrs =>
      simp only [hedge] at h
      cases h
      obtain ⟨earlier, ty, incoming, later, hinstrs, rfl⟩ := addEdge?_eq_some hedge
      exact ⟨[], earlier, ty, incoming, later, rest, by rw [← hinstrs]; rfl, rfl⟩
    | none =>
      simp only [hedge] at h
      obtain ⟨rest', hrest, rfl⟩ := Option.map_eq_some_iff.mp h
      obtain ⟨before, earlier, ty, incoming, later, after, rfl, rfl⟩ := ih hrest
      exact ⟨block :: before, earlier, ty, incoming, later, after, rfl, rfl⟩

/-- An edge is added to the one instruction that computes `phi`, and nothing else changes. -/
inductive EdgeAdded (phi : ValueId) (edge : PhiEdge) : List Block → List Block → Prop where
  | intro (before : List Block) (earlier : List Instr) (ty : Ty) (incoming : List PhiEdge)
      (later : List Instr) (after : List Block)
      (others : ∀ i ∈ before.flatMap Block.instructions ++ earlier ++
        (later ++ after.flatMap Block.instructions), i.destination? ≠ some phi) :
      EdgeAdded phi edge (before ++ ⟨earlier ++ .phi phi ty incoming :: later⟩ :: after)
        (before ++ ⟨earlier ++ .phi phi ty (incoming ++ [edge]) :: later⟩ :: after)

/-- If no value is computed twice, an edge that is added is added to the only phi in question. -/
theorem edgeAdded_of_nodup {phi : ValueId} {edge : PhiEdge} {blocks blocks' : List Block}
    (hnodup : ((blocks.flatMap Block.instructions).filterMap Instr.destination?).Nodup)
    (h : addBlockEdge? phi edge blocks = some blocks') : EdgeAdded phi edge blocks blocks' := by
  obtain ⟨before, earlier, ty, incoming, later, after, rfl, rfl⟩ := addBlockEdge?_eq_some h
  refine .intro before earlier ty incoming later after fun i hi hdst => ?_
  have hsplit : (before ++ (⟨earlier ++ .phi phi ty incoming :: later⟩ : Block) :: after).flatMap
      Block.instructions = (before.flatMap Block.instructions ++ earlier) ++
        .phi phi ty incoming :: (later ++ after.flatMap Block.instructions) := by
    simp
  have hdestination : (Instr.phi phi ty incoming).destination? = some phi := rfl
  rw [hsplit, List.filterMap_append, List.filterMap_cons_some hdestination, List.nodup_middle,
    List.nodup_cons, ← List.filterMap_append] at hnodup
  exact hnodup.1 (List.mem_filterMap.mpr ⟨i, hi, hdst⟩)

/-- The edge of one phi. -/
def single (phi : ValueId) (edge : PhiEdge) (v : ValueId) : List PhiEdge := if v = phi then [edge] else []

/-- Adding an edge to one phi is adding it to all instructions that compute the value. -/
theorem EdgeAdded.eq_map {phi : ValueId} {edge : PhiEdge} {blocks blocks' : List Block}
    (h : EdgeAdded phi edge blocks blocks') :
    blocks' = blocks.map (Block.withEdges (single phi edge)) := by
  cases h with
  | intro before earlier ty incoming later after others =>
    have hinstrs {instrs : List Instr} (h : ∀ i ∈ instrs, i.destination? ≠ some phi) :
        instrs.map (Instr.withEdges (single phi edge)) = instrs := by
      refine (List.map_congr_left fun i hi => ?_).trans (List.map_id instrs)
      refine Instr.withEdges_eq_self fun v hv => if_neg ?_
      rintro rfl
      exact h i hi hv
    have hblocks {blocks : List Block}
        (h : ∀ i ∈ blocks.flatMap Block.instructions, i.destination? ≠ some phi) :
        blocks.map (Block.withEdges (single phi edge)) = blocks := by
      refine (List.map_congr_left fun block hblock => ?_).trans (List.map_id blocks)
      have hblock := hinstrs fun i hi => h i (List.mem_flatMap.mpr ⟨block, hblock, hi⟩)
      rw [Block.withEdges, hblock]
      rfl
    have hone : (Instr.phi phi ty incoming).withEdges (single phi edge) =
        .phi phi ty (incoming ++ [edge]) := by
      rw [Instr.withEdges, single, if_pos rfl]
    simp only [List.mem_append] at others
    rw [List.map_append, List.map_cons, hblocks fun i hi => others i (.inl (.inl hi)),
      hblocks fun i hi => others i (.inr (.inr hi)), Block.withEdges, List.map_append, List.map_cons,
      hinstrs fun i hi => others i (.inl (.inr hi)), hinstrs fun i hi => others i (.inr (.inl hi)), hone]

/-! ## What a step does -/

/-- What a step does to a builder. -/
inductive Effect (b : Builder) : Step → Outcome → Builder → Prop where
  | parameter {index : Nat} : Effect b (.parameter index) (.value ⟨index⟩) b
  | currentBlock : Effect b .currentBlock (.block b.current) b
  | createBlock : Effect b .createBlock (.block ⟨b.function.blocks.length⟩)
      (b.withBlocks (b.function.blocks ++ [⟨[]⟩]))
  | switchTo {block : BlockId} (known : block.index < b.function.blocks.length) :
      Effect b (.switchTo block) .nothing { b with current := block }
  | compute {s : Step} {i : Instr} (written : s.instr? ⟨b.nextValue⟩ = some i)
      (new : i.destination? = some ⟨b.nextValue⟩) :
      Effect b s (.value ⟨b.nextValue⟩) ({ b with nextValue := b.nextValue + 1 }.push i)
  | act {s : Step} {i : Instr} (written : s.instr? ⟨b.nextValue⟩ = some i)
      (plain : i.destination? = none) : Effect b s .nothing (b.push i)
  | addIncoming {phi : ValueId} {edge : PhiEdge} {blocks : List Block}
      (found : addBlockEdge? phi edge b.function.blocks = some blocks) :
      Effect b (.addIncoming phi edge) .nothing (b.withBlocks blocks)

theorem effect_of_step {b b' : Builder} {s : Step} {o : Outcome} (h : b.step s = .ok (o, b')) :
    b.Effect s o b' := by
  cases s with
  | parameter index =>
    simp only [step] at h
    split at h
    · cases h
      exact .parameter
    · cases h
  | switchTo block =>
    simp only [step] at h
    split at h
    · next hknown =>
      cases h
      exact .switchTo hknown
    · cases h
  | addIncoming phi edge =>
    simp only [step] at h
    split at h
    · next blocks hfound =>
      cases h
      exact .addIncoming hfound
    · cases h
  | createBlock => cases h; exact .createBlock
  | currentBlock => cases h; exact .currentBlock
  | const | math | compare | phi | loadGlobal | new | loadField | call | callNative =>
    cases h
    exact .compute rfl rfl
  | storeGlobal | storeField | callVoid | callNativeVoid | jump | branch | ret =>
    cases h
    exact .act rfl rfl

theorem run_of_step {b b' : Builder} {s : Step} {o : Outcome} (h : b.step s = .ok (o, b'))
    (rest : List Step) : b.run (s :: rest) =
      ⟨o :: (b'.run rest).outcomes, (b'.run rest).builder, (b'.run rest).fault⟩ := by
  rw [run, h]

/-- The first of the steps that are performed to the end. -/
theorem run_cons {b : Builder} {s : Step} {rest : List Step} (h : (b.run (s :: rest)).fault = none) :
    ∃ o b', b.step s = .ok (o, b') ∧ (b'.run rest).fault = none := by
  cases hstep : b.step s with
  | error fault =>
    rw [run, hstep] at h
    cases h
  | ok r =>
    rw [run_of_step hstep] at h
    exact ⟨r.1, r.2, rfl, h⟩

/-- Steps that are performed to the end can be cut anywhere. -/
theorem run_append {b : Builder} {front back : List Step} (h : (b.run (front ++ back)).fault = none) :
    (b.run front).fault = none ∧ ((b.run front).builder.run back).fault = none ∧
      (b.run (front ++ back)).builder = ((b.run front).builder.run back).builder := by
  induction front generalizing b with
  | nil => exact ⟨rfl, h, rfl⟩
  | cons s rest ih =>
    obtain ⟨o, b', hstep, hrest⟩ := run_cons h
    rw [List.cons_append, run_of_step hstep, run_of_step hstep]
    exact ih hrest

end Builder

/-! ## Transcripts -/

theorem newValues_succ {base next : Nat} (h : base ≤ next) :
    newValues base (next + 1) = newValues base next ++ [⟨next⟩] := by
  obtain ⟨count, rfl⟩ := Nat.exists_eq_add_of_le h
  have hcount : base + count + 1 - base = count + 1 := by omega
  rw [newValues, newValues, hcount, Nat.add_sub_cancel_left, List.range'_1_concat, List.map_append]
  rfl

theorem mem_newValues {base next : Nat} {v : ValueId} (h : v ∈ newValues base next) :
    base ≤ v.index ∧ v.index < next := by
  obtain ⟨n, hn, rfl⟩ := List.mem_map.mp h
  obtain ⟨hbase, hnext⟩ := List.mem_range'_1.mp hn
  exact ⟨hbase, by show n < next; omega⟩

theorem nodup_newValues (base next : Nat) : (newValues base next).Nodup := by
  refine List.Nodup.map ?_ List.nodup_range'
  intro m n h
  cases h
  rfl

namespace Transcript

variable {t : Transcript}

theorem getElem?_blocks (t : Transcript) (k : Nat) :
    t.blocks[k]? = if k < t.count then some (t.block k) else none := by
  rw [blocks, List.getElem?_map]
  by_cases hk : k < t.count
  · rw [if_pos hk, List.getElem?_range hk]
    rfl
  · rw [if_neg hk, List.getElem?_eq_none (by rw [List.length_range]; omega)]
    rfl

theorem length_blocks (t : Transcript) : t.blocks.length = t.count := by
  rw [blocks, List.length_map, List.length_range]

/-- The instructions, sorted by blocks below a bound. -/
theorem perm_sorted (pushed : List (BlockId × Instr)) (count : Nat) :
    ((List.range count).flatMap fun k => pushed.filter (·.1.index = k)).Perm
      (pushed.filter (·.1.index < count)) := by
  induction count with
  | zero => simp
  | succ count ih =>
    rw [List.range_succ, List.flatMap_append, List.flatMap_singleton]
    have hbelow : (pushed.filter (·.1.index < count + 1)).filter (·.1.index < count) =
        pushed.filter (·.1.index < count) := by
      rw [List.filter_filter]
      refine List.filter_congr fun p _ => ?_
      rw [Bool.eq_iff_iff]
      simp only [Bool.and_eq_true, decide_eq_true_eq]
      omega
    have hlast : (pushed.filter (·.1.index < count + 1)).filter (fun p => ! decide (p.1.index < count)) =
        pushed.filter (·.1.index = count) := by
      rw [List.filter_filter]
      refine List.filter_congr fun p _ => ?_
      rw [Bool.eq_iff_iff]
      simp only [Bool.and_eq_true, Bool.not_eq_true', decide_eq_true_eq, decide_eq_false_iff_not]
      omega
    have hsplit := List.filter_append_perm (fun p : BlockId × Instr => decide (p.1.index < count))
      (pushed.filter (·.1.index < count + 1))
    rw [hbelow, hlast] at hsplit
    exact (ih.append_right _).trans hsplit

/-- The results of the instructions are what the instructions compute that were written down. -/
theorem perm_destinations (t : Transcript) (hinside : ∀ p ∈ t.pushed, p.1.index < t.count) :
    ((t.blocks.flatMap Block.instructions).filterMap Instr.destination?).Perm t.results := by
  have hinstrs : t.blocks.flatMap Block.instructions =
      ((List.range t.count).flatMap fun k => t.pushed.filter (·.1.index = k)).map
        fun p => p.2.withEdges t.edgesTo := by
    rw [blocks, List.flatMap_map, List.map_flatMap]
    rfl
  have hdestinations (ps : List (BlockId × Instr)) :
      (ps.map fun p => p.2.withEdges t.edgesTo).filterMap Instr.destination? =
        ps.filterMap fun p => p.2.destination? := by
    rw [List.filterMap_map]
    refine List.filterMap_congr fun p _ => ?_
    exact Instr.destination?_withEdges _ _
  have hall : t.pushed.filter (·.1.index < t.count) = t.pushed :=
    List.filter_eq_self.mpr fun p hp => decide_eq_true (hinside p hp)
  have hsorted := perm_sorted t.pushed t.count
  rw [hall] at hsorted
  rw [hinstrs, hdestinations]
  exact hsorted.filterMap _

/-- A step that adds an instruction. -/
theorem add_of_instr? {s : Step} {i : Instr} (h : s.instr? ⟨t.next⟩ = some i) :
    t.add s =
      { t with pushed := t.pushed ++ [(t.current, i)], next := t.next + i.destination?.toList.length } := by
  cases s with
  | parameter | createBlock | switchTo | currentBlock | addIncoming => cases h
  | _ => cases h; rfl

/-- An instruction goes to the end of the current block. -/
theorem blocks_push {i : Instr} (h : i.withEdges t.edgesTo = i) (next : Nat) :
    Transcript.blocks { t with pushed := t.pushed ++ [(t.current, i)], next } =
      t.blocks.modify t.current.index (Builder.append i) := by
  have hblock (k : Nat) : Transcript.block { t with pushed := t.pushed ++ [(t.current, i)], next } k =
      if t.current.index = k then Builder.append i (t.block k) else t.block k := by
    unfold block
    rw [List.filter_append, List.map_append]
    by_cases hcurrent : t.current.index = k
    · rw [if_pos hcurrent, List.filter_cons_of_pos (by simpa using hcurrent), List.filter_nil]
      show _ = (⟨_ ++ [i]⟩ : Block)
      conv => rhs; rw [← h]
      rfl
    · rw [if_neg hcurrent, List.filter_cons_of_neg (by simpa using hcurrent), List.filter_nil, List.map_nil,
        List.append_nil]
      rfl
  apply List.ext_getElem?
  intro k
  rw [getElem?_blocks, List.getElem?_modify, getElem?_blocks, hblock]
  by_cases hk : k < t.count
  · rw [if_pos hk, if_pos hk]
    rfl
  · rw [if_neg hk, if_neg hk]
    rfl

/-- An edge goes to all phis that compute the value. -/
theorem blocks_edge (t : Transcript) (phi : ValueId) (edge : PhiEdge) :
    Transcript.blocks { t with edges := t.edges ++ [(phi, edge)] } =
      t.blocks.map (Block.withEdges (Builder.single phi edge)) := by
  have hedges : Transcript.edgesTo { t with edges := t.edges ++ [(phi, edge)] } =
      fun v => t.edgesTo v ++ Builder.single phi edge v := by
    funext v
    unfold edgesTo Builder.single
    rw [List.filter_append, List.map_append]
    by_cases hv : phi = v
    · rw [if_pos hv.symm, List.filter_cons_of_pos (by simpa using hv)]
      rfl
    · rw [if_neg (Ne.symm hv), List.filter_cons_of_neg (by simpa using hv)]
      rfl
  rw [blocks, blocks, List.map_map]
  refine List.map_congr_left fun k _ => ?_
  show (⟨_⟩ : Block) = ⟨_⟩
  rw [hedges]
  simp only [block, List.map_map, Function.comp_def, Instr.withEdges_withEdges]

/-- A new block is empty. -/
theorem blocks_createBlock (hinside : ∀ p ∈ t.pushed, p.1.index < t.count) :
    Transcript.blocks { t with count := t.count + 1 } = t.blocks ++ [⟨[]⟩] := by
  rw [blocks, List.range_succ, List.map_append]
  show t.blocks ++ [t.block t.count] = _
  have hnone : t.pushed.filter (·.1.index = t.count) = [] :=
    List.filter_eq_nil_iff.mpr fun p hp => by simpa using Nat.ne_of_lt (hinside p hp)
  rw [block, hnone]
  rfl

theorem results_add_of_instr? {s : Step} {i : Instr} (h : s.instr? ⟨t.next⟩ = some i) :
    (t.add s).results = t.results ++ i.destination?.toList := by
  rw [add_of_instr? h, results, List.filterMap_append]
  cases hdst : i.destination? <;> simp [results, hdst]

/-- The function under construction is what the transcript says, under a given header. -/
structure Describes (t : Transcript) (header : Function) (b : Builder) : Prop where
  function : b.function = { header with blocks := t.blocks }
  current : b.current = t.current
  next : b.nextValue = t.next
  /-- Instructions go to blocks that exist. -/
  current_lt : t.current.index < t.count
  pushed_lt : ∀ p ∈ t.pushed, p.1.index < t.count
  /-- New values are the results of instructions, in order. -/
  parameters_le : header.parameters.length ≤ t.next
  results : t.results = newValues header.parameters.length t.next
  /-- Edges are added to phis that exist. -/
  edges_lt : ∀ e ∈ t.edges, e.1.index < t.next

namespace Describes

variable {header : Function} {b : Builder}

theorem start (name : String) (parameters : List Ty) (result : Option Ty) :
    (Transcript.start parameters.length).Describes ⟨name, parameters, result, []⟩
      (.start name parameters result) where
  function := rfl
  current := rfl
  next := rfl
  current_lt := Nat.zero_lt_one
  pushed_lt := nofun
  parameters_le := Nat.le_refl _
  results := by simp [Transcript.start, Transcript.results, newValues]
  edges_lt := nofun

/-- **Every new value is the result of one instruction.** -/
theorem perm_results (h : t.Describes header b) :
    (b.function.instructions.filterMap Instr.destination?).Perm
      (newValues header.parameters.length b.nextValue) := by
  rw [Function.instructions, h.function, h.next, ← h.results]
  exact t.perm_destinations h.pushed_lt

theorem nodup_results (h : t.Describes header b) :
    (b.function.instructions.filterMap Instr.destination?).Nodup :=
  h.perm_results.nodup_iff.mpr (nodup_newValues _ _)

/-- No edges were added to a value that is still to come. -/
theorem edgesTo_next (h : t.Describes header b) : t.edgesTo ⟨t.next⟩ = [] := by
  have hnone : t.edges.filter (·.1 = ⟨t.next⟩) = [] := by
    refine List.filter_eq_nil_iff.mpr fun e he hnext => ?_
    have hlt := h.edges_lt e he
    rw [of_decide_eq_true hnext] at hlt
    exact Nat.lt_irrefl _ hlt
  rw [edgesTo, hnone]
  rfl

/-- A step that adds an instruction, whose result is the next new value if it has one. -/
theorem push (h : t.Describes header b) {s : Step} {i : Instr} (hs : s.instr? ⟨b.nextValue⟩ = some i)
    (hnew : ∀ v, i.destination? = some v → v = ⟨b.nextValue⟩) :
    (t.add s).Describes header
      ({ b with nextValue := b.nextValue + i.destination?.toList.length }.push i) := by
  rw [h.next] at hs hnew
  -- if it is a phi, its edges are still to come
  have hfresh : i.withEdges t.edgesTo = i := by
    refine Instr.withEdges_eq_self fun v hv => ?_
    rw [hnew v hv]
    exact h.edgesTo_next
  rw [add_of_instr? hs]
  constructor
  case function =>
    rw [blocks_push hfresh]
    show { b.function with blocks := b.function.blocks.modify b.current.index (Builder.append i) } = _
    rw [h.function, h.current]
  case current => exact h.current
  case next =>
    show b.nextValue + _ = _
    rw [h.next]
  case current_lt => exact h.current_lt
  case pushed_lt =>
    intro p hp
    rcases List.mem_append.mp hp with hp | hp
    · exact h.pushed_lt p hp
    · obtain rfl := List.mem_singleton.mp hp
      exact h.current_lt
  case parameters_le => exact Nat.le_trans h.parameters_le (Nat.le_add_right _ _)
  case results =>
    have hresults := results_add_of_instr? hs
    rw [add_of_instr? hs, h.results] at hresults
    rw [hresults]
    cases hdst : i.destination? with
    | none => exact List.append_nil _
    | some v =>
      obtain rfl := hnew v hdst
      exact (newValues_succ h.parameters_le).symm
  case edges_lt => exact fun e he => Nat.lt_of_lt_of_le (h.edges_lt e he) (Nat.le_add_right _ _)

/-- A step that adds an edge to a phi. -/
theorem addIncoming (h : t.Describes header b) {phi : ValueId} {edge : PhiEdge} {blocks : List Block}
    (hadded : Builder.EdgeAdded phi edge b.function.blocks blocks) :
    (t.add (.addIncoming phi edge)).Describes header (b.withBlocks blocks) := by
  -- the phi is one of the results so far, so that later ones do not get this edge
  have hphi : phi.index < t.next := by
    have hmem : phi ∈ b.function.instructions.filterMap Instr.destination? := by
      rw [Function.instructions]
      generalize b.function.blocks = blocks₀ at hadded
      cases hadded
      simp [Instr.destination?]
    have hresult := (mem_newValues (h.perm_results.mem_iff.mp hmem)).2
    rwa [h.next] at hresult
  constructor
  case function =>
    show { b.function with blocks } = { header with blocks := Transcript.blocks _ }
    rw [hadded.eq_map, add, blocks_edge, h.function]
  case current => exact h.current
  case next => exact h.next
  case current_lt => exact h.current_lt
  case pushed_lt => exact h.pushed_lt
  case parameters_le => exact h.parameters_le
  case results => exact h.results
  case edges_lt =>
    intro e he
    rcases List.mem_append.mp he with he | he
    · exact h.edges_lt e he
    · obtain rfl := List.mem_singleton.mp he
      exact hphi

theorem createBlock (h : t.Describes header b) :
    (t.add .createBlock).Describes header (b.withBlocks (b.function.blocks ++ [⟨[]⟩])) where
  function := by
    show { b.function with blocks := b.function.blocks ++ [⟨[]⟩] } =
      { header with blocks := Transcript.blocks _ }
    rw [h.function, add, blocks_createBlock h.pushed_lt]
  current := h.current
  next := h.next
  current_lt := Nat.lt_succ_of_lt h.current_lt
  pushed_lt := fun p hp => Nat.lt_succ_of_lt (h.pushed_lt p hp)
  parameters_le := h.parameters_le
  results := h.results
  edges_lt := h.edges_lt

theorem switchTo (h : t.Describes header b) {block : BlockId}
    (hknown : block.index < b.function.blocks.length) :
    (t.add (.switchTo block)).Describes header { b with current := block } where
  function := h.function
  current := rfl
  next := h.next
  current_lt := by
    rw [h.function] at hknown
    exact t.length_blocks ▸ hknown
  pushed_lt := h.pushed_lt
  parameters_le := h.parameters_le
  results := h.results
  edges_lt := h.edges_lt

/-- **A step is written down as what it does,** and the value that it gives back is the one that it
computes. -/
theorem step (h : t.Describes header b) {s : Step} {o : Outcome} {b' : Builder}
    (hstep : b.step s = .ok (o, b')) :
    (t.add s).Describes header b' ∧ (t.add s).results = t.results ++ (s.computed? o).toList := by
  cases Builder.effect_of_step hstep with
  | parameter => exact ⟨h, (List.append_nil _).symm⟩
  | currentBlock => exact ⟨h, (List.append_nil _).symm⟩
  | createBlock => exact ⟨h.createBlock, (List.append_nil _).symm⟩
  | switchTo known => exact ⟨h.switchTo known, (List.append_nil _).symm⟩
  | @compute _ i written new =>
    have hpush := h.push written (by rw [new]; rintro v ⟨⟩; rfl)
    have hcomputed : s.computed? (.value ⟨b.nextValue⟩) = i.destination? := by
      rw [new]
      cases s with
      | parameter => cases written
      | _ => rfl
    rw [new] at hpush
    rw [hcomputed]
    exact ⟨hpush, results_add_of_instr? (h.next ▸ written)⟩
  | @act _ i written plain =>
    have hpush := h.push written (by rw [plain]; nofun)
    have hcomputed : s.computed? .nothing = i.destination? := by
      rw [plain]
      cases s <;> rfl
    rw [plain] at hpush
    rw [hcomputed]
    exact ⟨hpush, results_add_of_instr? (h.next ▸ written)⟩
  | addIncoming found =>
    exact ⟨h.addIncoming (Builder.edgeAdded_of_nodup h.nodup_results found), (List.append_nil _).symm⟩

/-- **Steps are written down as what they do.** -/
theorem run (h : t.Describes header b) {steps : List Step} (hfault : (b.run steps).fault = none) :
    (steps.foldl add t).Describes header (b.run steps).builder ∧
      (b.run steps).outcomes.length = steps.length ∧
      (steps.foldl add t).results = t.results ++ returned steps (b.run steps).outcomes := by
  induction steps generalizing t b with
  | nil => exact ⟨h, rfl, (List.append_nil _).symm⟩
  | cons s rest ih =>
    obtain ⟨o, b', hstep, hrest⟩ := Builder.run_cons hfault
    rw [Builder.run_of_step hstep]
    obtain ⟨hnext, hcomputed⟩ := h.step hstep
    obtain ⟨hend, hlength, hresults⟩ := ih hnext hrest
    refine ⟨hend, congrArg (· + 1) hlength, ?_⟩
    rw [List.foldl_cons, hresults, hcomputed, List.append_assoc]
    congr 1
    show _ = ((s, o) :: rest.zip (b'.run rest).outcomes).filterMap fun p => p.1.computed? p.2
    cases hvalue : s.computed? o <;> simp [hvalue, returned]

end Describes
end Transcript

/-! ## Functions -/

/-- Parameters and new values are told apart by their numbers. -/
theorem nodup_values {f : Function} {next : Nat}
    (h : (f.instructions.filterMap Instr.destination?).Perm (newValues f.parameters.length next)) :
    (f.parameterValues.map Prod.fst ++ f.instructions.filterMap Instr.destination?).Nodup := by
  refine List.nodup_append.mpr ⟨nodup_parameterTypes f, h.nodup_iff.mpr (nodup_newValues _ _), ?_⟩
  intro v hv w hw he
  have hnew := (mem_newValues (h.mem_iff.mp hw)).1
  obtain ⟨k, hk⟩ := List.mem_iff_getElem?.mp hv
  rw [List.getElem?_map, getElem?_parameterValues, Option.map_map] at hk
  obtain ⟨ty, hty, rfl⟩ := Option.map_eq_some_iff.mp hk
  have hlt : k < f.parameters.length := (List.getElem?_eq_some_iff.mp hty).1
  rw [← he] at hnew
  exact Nat.not_le_of_lt hlt hnew

/-- **An edge goes to the phi that it is for,** whatever was built before. -/
theorem Builder.run_addIncoming {name : String} {parameters : List Ty} {result : Option Ty}
    {front : List Step} {phi : ValueId} {edge : PhiEdge}
    (h : ((start name parameters result).run (front ++ [.addIncoming phi edge])).fault = none) :
    ∃ blocks, ((start name parameters result).run (front ++ [.addIncoming phi edge])).builder =
        ((start name parameters result).run front).builder.withBlocks blocks ∧
      EdgeAdded phi edge ((start name parameters result).run front).builder.function.blocks blocks := by
  obtain ⟨hfront, hlast, hbuilder⟩ := run_append h
  obtain ⟨hdescribes, -⟩ := (Transcript.Describes.start name parameters result).run hfront
  obtain ⟨o, b', hstep, -⟩ := run_cons hlast
  rw [hbuilder, run_of_step hstep]
  -- the values that were computed before are all different
  cases effect_of_step hstep with
  | addIncoming found => exact ⟨_, rfl, edgeAdded_of_nodup hdescribes.nodup_results found⟩
  | compute written => cases written
  | act written => cases written

/-- **Functions that are built have single assignments.** -/
theorem Program.build_singleAssignment (p p' : Program) (name : String) (parameters : List Ty)
    (result : Option Ty) (steps : List Step) (r : Builder.Run)
    (hbuild : p.build name parameters result steps = .ok (r, p')) (hfault : r.fault = none) :
    p' = p.add r.builder.function ∧
    -- The destinations of all instructions are the new values, each of them once.
    (r.builder.function.instructions.filterMap Instr.destination?).Perm
      (newValues parameters.length r.builder.nextValue) ∧
    -- They are what the steps gave back, in order.
    r.outcomes.length = steps.length ∧
    returned steps r.outcomes = newValues parameters.length r.builder.nextValue ∧
    (transcript parameters.length steps).results = returned steps r.outcomes ∧
    -- Every block holds what was added to it, in order, and every phi the edges that were added to it.
    r.builder.function = ⟨name, parameters, result, (transcript parameters.length steps).blocks⟩ ∧
    -- An edge that is added at any time goes to the one instruction that computes the value.
    (∀ front phi edge back, steps = front ++ .addIncoming phi edge :: back →
      ∃ blocks, ((Builder.start name parameters result).run (front ++ [.addIncoming phi edge])).builder =
          ((Builder.start name parameters result).run front).builder.withBlocks blocks ∧
        Builder.EdgeAdded phi edge
          ((Builder.start name parameters result).run front).builder.function.blocks blocks) ∧
    -- No value is ever found to be defined twice.
    ∀ c v c', lowerFunction r.builder.function c ≠ .error (.error (.redefinition v)) c' := by
  unfold build at hbuild
  split at hbuild
  · cases hbuild
  · cases hbuild
    have hstart := Transcript.Describes.start name parameters result
    obtain ⟨hend, hlength, hresults⟩ := hstart.run hfault
    have hnew := hend.perm_results
    have hreturned : (transcript parameters.length steps).results =
        returned steps ((Builder.start name parameters result).run steps).outcomes := hresults
    refine ⟨rfl, hnew, hlength, ?_, hreturned, hend.function, ?_, ?_⟩
    · rw [← hreturned, hend.next]
      exact hend.results
    · rintro front phi edge back rfl
      rw [List.append_cons] at hfault
      exact Builder.run_addIncoming (Builder.run_append hfault).1
    · intro c v c' hstop
      have hparameters := congrArg Function.parameters hend.function
      exact stopsFor_lowerFunction_of_nodup (nodup_values (hparameters ▸ hnew)) c _ _ hstop

/-- Steps for a loop whose phi gets its edges in the end, and whose last block is written before its body. -/
def spiralSteps : List Step :=
  [.parameter 0, .const (.int 0), .createBlock, .createBlock, .createBlock, .jump ⟨1⟩,
    .switchTo ⟨1⟩, .phi .int, .compare .less ⟨2⟩ ⟨0⟩, .branch ⟨3⟩ ⟨2⟩ ⟨3⟩,
    .switchTo ⟨3⟩, .math .add ⟨2⟩ ⟨1⟩, .ret (some ⟨4⟩),
    .switchTo ⟨2⟩, .math .add ⟨2⟩ ⟨0⟩, .jump ⟨1⟩,
    .addIncoming ⟨2⟩ ⟨⟨0⟩, ⟨1⟩⟩, .addIncoming ⟨2⟩ ⟨⟨2⟩, ⟨5⟩⟩]

/-- The blocks that `spiralSteps` build. -/
def spiralBlocks : List Block :=
  [⟨[.const ⟨1⟩ (.int 0), .jump ⟨1⟩]⟩,
    ⟨[.phi ⟨2⟩ .int [⟨⟨0⟩, ⟨1⟩⟩, ⟨⟨2⟩, ⟨5⟩⟩], .compare ⟨3⟩ .less ⟨2⟩ ⟨0⟩, .branch ⟨3⟩ ⟨2⟩ ⟨3⟩]⟩,
    ⟨[.math ⟨5⟩ .add ⟨2⟩ ⟨0⟩, .jump ⟨1⟩]⟩,
    ⟨[.math ⟨4⟩ .add ⟨2⟩ ⟨1⟩, .ret (some ⟨4⟩)]⟩]

theorem Program.build_singleAssignment_spiral :
    ∃ r p', Program.build { sourcePath := "spiral" } "spiral" [.int] (some .int) spiralSteps = .ok (r, p') ∧
      r.fault = none ∧ r.builder.function = ⟨"spiral", [.int], some .int, spiralBlocks⟩ ∧
      returned spiralSteps r.outcomes = [⟨1⟩, ⟨2⟩, ⟨3⟩, ⟨4⟩, ⟨5⟩] ∧
      ∀ c v c', lowerFunction r.builder.function c ≠ .error (.error (.redefinition v)) c' := by
  obtain ⟨-, -, -, hreturned, -, hfunction, -, hlowered⟩ :=
    build_singleAssignment { sourcePath := "spiral" } _ "spiral" [.int] (some .int) spiralSteps _
      (if_neg (by decide)) rfl
  refine ⟨_, _, if_neg (by decide), rfl, ?_, ?_, hlowered⟩
  · rw [hfunction]
    rfl
  · rw [hreturned]
    rfl

end DisBackend.Ssa
