import DisBackend.Proofs.Lowering.Simultaneous
import DisBackend.Proofs.Semantics.Program

/-!
# `Proofs.Lowering.Moves` — the moves on an edge happen at the same time

Lowering turns the phis of a block into moves between words of the frame. The lines written for them are
executed one after the other, through temporaries if a word is both read and written. Their effect is
that of moving all words at the same time, which is what entering the block means.

## Contents

* `Carried`, `Moved.run` — the effect of moves that happen at the same time, and that the lines have it;
* `EdgeMoves.move_of_phi`, `EdgeMoves.phi_of_move` — the moves are those of the phis.
-/

namespace DisBackend

open Ssa (BlockId Config Function Instr PhiEdge Ty Value ValueId)

/-! ## Words of a frame -/

/-- The words after the header, counted from the start of the frame. -/
theorem wordOffset_headerBytes (k : Nat) : wordOffset headerBytes k = wordOffset 0 (8 + k) := by
  unfold wordOffset headerBytes wordBytes
  omega

/-- The words of a frame can be read. -/
theorem FrameWord.readable {count : Nat} {offset : Int} (h : FrameWord count offset) {frame : Area}
    (hlen : 8 + count ≤ frame.length) : (frame.word? offset).isSome := by
  obtain ⟨k, hk, rfl⟩ := h
  rw [wordOffset_headerBytes, Area.word?_wordOffset, List.getElem?_eq_getElem (by omega)]
  rfl

/-! ## Moves at the same time -/

/-- What `moves` do to a frame if they happen at the same time. Words that are scratch may change
besides. -/
structure Carried (moves : List Move) (scratch : Int → Prop) (before after : Area) : Prop where
  length : after.length = before.length
  moved : ∀ m ∈ moves, after.word? m.dst = before.word? m.src
  kept : ∀ offset, ¬ scratch offset → (∀ m ∈ moves, m.dst ≠ offset) →
    after.word? offset = before.word? offset

section Runs

variable {P : Platform} {fragment : Fragment} {starts : List Nat}

/-- **The lines for moves that happen at the same time** have that effect. The words that the moves name
lie in the first part of the frame, behind which the temporaries lie. -/
theorem Moved.run {moves : List Move} {s s' : State} {lines rest : List Line}
    (h : Moved moves s lines s') {m : Machine}
    (hplaced : Placed starts fragment.code m.pc (lines ++ rest))
    (hwords : ∀ mv ∈ moves, FrameWord s.frame.words.length mv.src ∧ FrameWord s.frame.words.length mv.dst)
    (hnodup : (moves.map Move.dst).Nodup) (hlen : 8 + s'.frame.words.length ≤ m.frame.length) :
    ∃ frame, m.Reaches P fragment { m with pc := m.pc + lines.length, frame } ∧
      Carried moves (s.frame.size ≤ ·) m.frame frame := by
  obtain ⟨rfl, rfl⟩ := h.scheduled
  have hbelow : ∀ mv ∈ moves, mv.src < s.frame.size ∧ mv.dst < s.frame.size := fun mv hmv =>
    ⟨(hwords mv hmv).1.lt, (hwords mv hmv).2.lt⟩
  rw [length_words_scheduled] at hlen
  have hnamed : ∀ mv ∈ moves, (m.frame.word? mv.src).isSome ∧ (m.frame.word? mv.dst).isSome := by
    intro mv hmv
    obtain ⟨hsrc, hdst⟩ := hwords mv hmv
    exact ⟨hsrc.readable (by omega), hdst.readable (by omega)⟩
  have htemporaries : ∀ t ∈ s.frame.temporaries moves, (m.frame.word? t).isSome := by
    intro t ht
    exact (mem_temporaries ht).2.readable (by omega)
  obtain ⟨frame, hreach, hlength, hcarry⟩ :=
    directLines_run (P := P) hplaced (words_of_schedule hnamed htemporaries)
  have honce := atOnce_schedule hnodup hbelow m.frame.word?
  rw [← hcarry] at honce
  refine ⟨frame, ?_, hlength, honce.moved, ?_⟩
  · rw [directLines, List.length_map]
    exact hreach
  · intro offset hscratch hother
    exact honce.kept offset (fun ht => hscratch (mem_temporaries ht).1) hother

end Runs

/-! ## The moves of the phis -/

/-- The phi `dst` has the slot `d`, and on the edge from `source` its value has the slot `s`. -/
structure PhiSlots (env : Env) (source : BlockId) (dst : ValueId) (incoming : List PhiEdge)
    (edge : PhiEdge) (d s : Slot) : Prop where
  edge_found : incoming.find? (·.block = source) = some edge
  dst_slot : env.slots.lookup dst = some d
  src_slot : env.slots.lookup edge.value = some s
  same_type : d.ty = s.ty

/-- A block whose phis come first and that does not start with one has none. -/
theorem not_phi_of_misplacedPhi? {instrs : List Instr} (h : Ssa.misplacedPhi? instrs = none)
    (hhead : ∀ i ∈ instrs.head?, i.isPhi = false) : ∀ i ∈ instrs, i.isPhi = false := by
  have hdrop : instrs.dropWhile Instr.isPhi = instrs := by
    cases instrs with
    | nil => rfl
    | cons i rest =>
      have hi : i.isPhi = false := hhead i (by simp)
      rw [List.dropWhile_cons, hi]
      rfl
  rw [Ssa.misplacedPhi?, hdrop] at h
  intro i hi
  cases hfound : instrs.find? Instr.isPhi with
  | none => simpa using List.find?_eq_none.mp hfound i hi
  | some j =>
    have hj : j.isPhi := List.find?_some hfound
    rw [hfound] at h
    cases j <;> simp only [Instr.isPhi, Bool.false_eq_true] at hj
    cases h

section Phis

variable {env : Env} {source : BlockId} {instrs : List Instr} {moves : List Move}

/-- Every phi has a move, unless its value lies in its own word. -/
theorem EdgeMoves.move_of_phi (h : EdgeMoves env source instrs moves)
    (hshape : Ssa.misplacedPhi? instrs = none) {dst : ValueId} {ty : Ty} {incoming : List PhiEdge}
    (hphi : Instr.phi dst ty incoming ∈ instrs) :
    ∃ edge d s, PhiSlots env source dst incoming edge d s ∧
      (s.offset = d.offset ∨ ⟨d.ty, s.offset, d.offset⟩ ∈ moves) := by
  induction h with
  | done hhead => exact absurd (not_phi_of_misplacedPhi? hshape hhead _ hphi) (by simp [Instr.isPhi])
  | @phi value ty' incoming' edge d s rest moves hedge hd hs hty _ ih =>
    have hrest : Ssa.misplacedPhi? rest = none := hshape
    rcases List.mem_cons.mp hphi with he | hphi
    · cases he
      refine ⟨edge, d, s, ⟨hedge, hd, hs, hty⟩, ?_⟩
      by_cases hsame : s.offset = d.offset
      · exact .inl hsame
      · exact .inr (by rw [if_neg hsame]; exact List.mem_cons_self)
    · obtain ⟨edge', d', s', hslots, hmove⟩ := ih hrest hphi
      refine ⟨edge', d', s', hslots, hmove.imp_right fun hmem => ?_⟩
      by_cases hsame : s.offset = d.offset
      · rw [if_pos hsame]; exact hmem
      · rw [if_neg hsame]; exact List.mem_cons_of_mem _ hmem

/-- Every move is that of a phi. -/
theorem EdgeMoves.phi_of_move (h : EdgeMoves env source instrs moves) {mv : Move} (hmv : mv ∈ moves) :
    ∃ dst ty incoming edge d s, Instr.phi dst ty incoming ∈ instrs ∧
      PhiSlots env source dst incoming edge d s ∧ s.offset ≠ d.offset ∧
      mv = ⟨d.ty, s.offset, d.offset⟩ := by
  induction h with
  | done _ => exact absurd hmv List.not_mem_nil
  | @phi value ty incoming edge d s rest moves hedge hd hs hty _ ih =>
    have hlater (hmem : mv ∈ moves) : ∃ dst ty' incoming' edge d s,
        Instr.phi dst ty' incoming' ∈ Instr.phi value ty incoming :: rest ∧
          PhiSlots env source dst incoming' edge d s ∧ s.offset ≠ d.offset ∧
          mv = ⟨d.ty, s.offset, d.offset⟩ := by
      obtain ⟨dst, ty', incoming', edge', d', s', hphi, hmove⟩ := ih hmem
      exact ⟨dst, ty', incoming', edge', d', s', List.mem_cons_of_mem _ hphi, hmove⟩
    by_cases hsame : s.offset = d.offset
    · rw [if_pos hsame] at hmv
      exact hlater hmv
    · rw [if_neg hsame] at hmv
      rcases List.mem_cons.mp hmv with rfl | hmem
      · exact ⟨value, ty, incoming, edge, d, s, List.mem_cons_self, ⟨hedge, hd, hs, hty⟩, hsame, rfl⟩
      · exact hlater hmem

/-- The moves of different phis have different destinations. -/
theorem EdgeMoves.nodup_dst (h : EdgeMoves env source instrs moves)
    (hdistinct : (instrs.filterMap Instr.destination?).Nodup)
    (hslots : ∀ {v w a b}, env.slots.lookup v = some a → env.slots.lookup w = some b →
      a.offset = b.offset → v = w) : (moves.map Move.dst).Nodup := by
  induction h with
  | done _ => exact List.nodup_nil
  | @phi value ty incoming edge d s rest moves hedge hd hs hty htail ih =>
    have hcons : (Instr.phi value ty incoming :: rest).filterMap Instr.destination?
        = value :: rest.filterMap Instr.destination? := rfl
    rw [hcons, List.nodup_cons] at hdistinct
    by_cases hsame : s.offset = d.offset
    · rw [if_pos hsame]
      exact ih hdistinct.2
    · rw [if_neg hsame, List.map_cons, List.nodup_cons]
      refine ⟨fun hmem => hdistinct.1 ?_, ih hdistinct.2⟩
      obtain ⟨mv, hmv, he⟩ := List.mem_map.mp hmem
      obtain ⟨dst, _, _, _, d', _, hphi, hslots', -, rfl⟩ := htail.phi_of_move hmv
      have hdst : dst = value := hslots hslots'.dst_slot hd he
      exact List.mem_filterMap.mpr ⟨_, hphi, by rw [← hdst]; rfl⟩

variable {values : ValueId → Option Value} {arriving : List (ValueId × Value)}

theorem phiValues?_cons {i : Instr} {rest : List Instr} (hi : i.isPhi = false) :
    Config.phiValues? values source (i :: rest) = Config.phiValues? values source rest := by
  cases i <;> simp only [Instr.isPhi, Bool.true_eq_false] at hi <;> rfl

/-- What is bound on an edge is the value that a phi has there. -/
theorem phi_of_phiValues? (h : Config.phiValues? values source instrs = some arriving) {v : ValueId}
    {x : Value} (hv : arriving.lookup v = some x) :
    ∃ ty incoming edge, Instr.phi v ty incoming ∈ instrs ∧
      incoming.find? (·.block = source) = some edge ∧ values edge.value = some x := by
  induction instrs generalizing arriving with
  | nil => cases h; cases hv
  | cons i rest ih =>
    have hlater {arriving'} (hrest : Config.phiValues? values source rest = some arriving')
        (hv' : arriving'.lookup v = some x) : ∃ ty incoming edge,
          Instr.phi v ty incoming ∈ i :: rest ∧ incoming.find? (·.block = source) = some edge ∧
          values edge.value = some x := by
      obtain ⟨ty, incoming, edge, hmem, hedge⟩ := ih hrest hv'
      exact ⟨ty, incoming, edge, List.mem_cons_of_mem _ hmem, hedge⟩
    by_cases hphi : i.isPhi
    · cases i <;> simp only [Instr.isPhi, Bool.false_eq_true] at hphi
      rename_i dst ty incoming
      simp only [Config.phiValues?, Option.bind_eq_bind, Option.bind_eq_some_iff,
        Option.pure_def, Option.some.injEq] at h
      obtain ⟨edge, hedge, y, hy, arriving', hrest, rfl⟩ := h
      by_cases hdst : v = dst
      · subst hdst
        rw [List.lookup_cons_self] at hv
        cases hv
        exact ⟨ty, incoming, edge, List.mem_cons_self, hedge, hy⟩
      · have hbeq : (v == dst) = false := by simpa using hdst
        rw [List.lookup_cons, hbeq] at hv
        exact hlater hrest hv
    · rw [phiValues?_cons (by simpa using hphi)] at h
      exact hlater h hv

/-- Every phi of a block is bound on an edge. -/
theorem phiValues?_of_phi (h : Config.phiValues? values source instrs = some arriving) {v : ValueId}
    {ty : Ty} {incoming : List PhiEdge} (hphi : Instr.phi v ty incoming ∈ instrs) :
    ∃ x, arriving.lookup v = some x := by
  induction instrs generalizing arriving with
  | nil => exact absurd hphi List.not_mem_nil
  | cons i rest ih =>
    by_cases hi : i.isPhi
    · cases i <;> simp only [Instr.isPhi, Bool.false_eq_true] at hi
      rename_i dst ty' incoming'
      simp only [Config.phiValues?, Option.bind_eq_bind, Option.bind_eq_some_iff,
        Option.pure_def, Option.some.injEq] at h
      obtain ⟨edge, hedge, y, hy, arriving', hrest, rfl⟩ := h
      by_cases hdst : v = dst
      · subst hdst
        exact ⟨y, List.lookup_cons_self⟩
      · have hbeq : (v == dst) = false := by simpa using hdst
        rw [List.lookup_cons, hbeq]
        rcases List.mem_cons.mp hphi with he | hphi
        · cases he; exact absurd rfl hdst
        · exact ih hrest hphi
    · rw [phiValues?_cons (by simpa using hi)] at h
      rcases List.mem_cons.mp hphi with rfl | hphi
      · exact absurd rfl hi
      · exact ih h hphi

end Phis
end DisBackend
