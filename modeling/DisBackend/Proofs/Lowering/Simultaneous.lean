import Mathlib.Logic.Function.Basic
import DisBackend.Proofs.Descriptor
import DisBackend.Proofs.Lowering.Slots
import DisBackend.Proofs.Semantics.Machine

/-!
# `Proofs.Lowering.Simultaneous` — moves one after the other, as if at the same time

The moves on an edge are to happen at the same time, but the machine makes one after the other. Where no word
is both read and written, the order does not matter. Everywhere else, be it a chain, a swap, a longer circle
or all of them at once, every value is saved in a word of its own before the first destination is written.

The argument is about what words hold, whatever that is. That the machine does with its frame what the lines
do with words is a matter of its own.

## Contents

* `Line.onWords?`, `AtOnce` — lines one after the other, and moves at the same time;
* `Frame.temporaries`, `Frame.schedule` — the new words, and the moves that are made in the end;
* `atOnce_carry`, `AtOnce.through`, `atOnce_schedule` — the schedule does what it should;
* `directLines_run` — the machine executes it;
* `moveAll_simultaneous` — the whole.
-/

namespace DisBackend

open Ssa (Ty)

/-! ## What words hold -/

section Words

variable {α : Type}

/-- What `moves` do to words if they happen at the same time. Words that are scratch may change besides. -/
structure AtOnce (moves : List Move) (scratch : Int → Prop) (before after : Int → α) : Prop where
  moved : ∀ m ∈ moves, after m.dst = before m.src
  kept : ∀ offset, ¬ scratch offset → (∀ m ∈ moves, m.dst ≠ offset) → after offset = before offset

/-- Executes a line that copies one word of the frame to another. -/
def Line.onWords? (words : Int → α) (line : Line) : Option (Int → α) :=
  match line.instruction.opcode.action?, line.instruction.src, line.instruction.dst with
  | some .move, .fp src, .fp dst => some (Function.update words dst (words src))
  | _, _, _ => none

/-- What words hold after moves one after the other. -/
def carry (words : Int → α) : List Move → Int → α
  | [] => words
  | m :: rest => carry (Function.update words m.dst (words m.src)) rest

theorem action?_moveOpcode (ty : Ty) : (moveOpcode ty).action? = some .move := by
  cases ty <;> rfl

theorem onWords?_moveLine (words : Int → α) (ty : Ty) (src dst : Int) :
    (moveLine ty (.fp src) (.fp dst)).onWords? words = some (Function.update words dst (words src)) := by
  simp [Line.onWords?, moveLine, Instruction.binary, action?_moveOpcode]

/-- The lines of moves make the moves. -/
theorem onWords?_directLines (words : Int → α) (moves : List Move) :
    (directLines moves).foldlM Line.onWords? words = some (carry words moves) := by
  induction moves generalizing words with
  | nil => rfl
  | cons m moves ih =>
    rw [directLines, List.map_cons, List.foldlM_cons, onWords?_moveLine]
    exact ih _

theorem carry_append (words : Int → α) (front back : List Move) :
    carry words (front ++ back) = carry (carry words front) back := by
  induction front generalizing words with
  | nil => rfl
  | cons m front ih => exact ih _

/-- **Moves that do not get in each other's way** can be made one after the other. -/
theorem atOnce_carry {moves : List Move} (hnodup : (moves.map Move.dst).Nodup)
    (hapart : ∀ r ∈ moves, ∀ w ∈ moves, w.dst ≠ r.src) (words : Int → α) :
    AtOnce moves (fun _ => False) words (carry words moves) := by
  induction moves generalizing words with
  | nil => exact ⟨by simp, fun _ _ _ => rfl⟩
  | cons m moves ih =>
    rw [List.map_cons, List.nodup_cons] at hnodup
    have hrest := ih hnodup.2
      (fun r hr w hw => hapart r (List.mem_cons_of_mem _ hr) w (List.mem_cons_of_mem _ hw))
      (Function.update words m.dst (words m.src))
    constructor
    · intro m' hm'
      rcases List.mem_cons.mp hm' with rfl | hm'
      · -- no later move writes to the first destination
        have hlater : ∀ m ∈ moves, m.dst ≠ m'.dst := by
          intro m hm he
          exact hnodup.1 (List.mem_map.mpr ⟨m, hm, he⟩)
        show carry (Function.update words m'.dst (words m'.src)) moves m'.dst = words m'.src
        rw [hrest.kept _ not_false hlater, Function.update_self]
      · -- the first move did not write to a later source
        have hne : m'.src ≠ m.dst := (hapart m' (List.mem_cons_of_mem _ hm') m List.mem_cons_self).symm
        show carry (Function.update words m.dst (words m.src)) moves m'.dst = words m'.src
        rw [hrest.moved m' hm', Function.update_of_ne hne]
    · intro offset _ hother
      show carry (Function.update words m.dst (words m.src)) moves offset = words offset
      rw [hrest.kept offset not_false fun m' hm' => hother m' (List.mem_cons_of_mem _ hm')]
      exact Function.update_of_ne (hother m List.mem_cons_self).symm _ _

end Words

/-! ## Temporaries -/

theorem nodup_nextOffsets (f : Frame) (count : Nat) : (f.nextOffsets count).Nodup := by
  refine List.Nodup.map ?_ List.nodup_range
  intro j k hjk
  have h := wordOffset_injective hjk
  omega

theorem length_nextOffsets (f : Frame) (count : Nat) : (f.nextOffsets count).length = count := by
  rw [Frame.nextOffsets, List.length_map, List.length_range]

/-- New words lie behind the frame, within the larger frame. -/
theorem mem_nextOffsets {f : Frame} {count : Nat} {offset : Int} (h : offset ∈ f.nextOffsets count) :
    f.size ≤ offset ∧ FrameWord (f.words.length + count) offset := by
  obtain ⟨k, hk, rfl⟩ := List.mem_map.mp h
  have hlt : k < count := List.mem_range.mp hk
  refine ⟨?_, f.words.length + k, by omega, rfl⟩
  unfold Frame.size wordOffset wordBytes
  omega

/-- The words that moves take besides those they name: one for each, if one of them reads a word that one of
them writes. -/
def Frame.temporaries (f : Frame) (moves : List Move) : List Int :=
  if overlap moves then f.nextOffsets moves.length else []

/-- The moves that are made in the end. -/
def Frame.schedule (f : Frame) (moves : List Move) : List Move :=
  if overlap moves then
    savingMoves moves (f.temporaries moves) ++ restoringMoves moves (f.temporaries moves)
  else moves

theorem length_temporaries (f : Frame) (moves : List Move) :
    (f.temporaries moves).length = if overlap moves then moves.length else 0 := by
  unfold Frame.temporaries
  split
  · exact length_nextOffsets f moves.length
  · rfl

theorem temporaries_eq (f : Frame) (moves : List Move) :
    f.temporaries moves = f.nextOffsets (f.temporaries moves).length := by
  rw [length_temporaries, Frame.temporaries]
  split <;> rfl

theorem nodup_temporaries (f : Frame) (moves : List Move) : (f.temporaries moves).Nodup := by
  rw [temporaries_eq]
  exact nodup_nextOffsets f _

/-- Temporaries lie behind the frame. -/
theorem mem_temporaries {f : Frame} {moves : List Move} {t : Int} (h : t ∈ f.temporaries moves) :
    f.size ≤ t ∧ FrameWord (f.words.length + (f.temporaries moves).length) t := by
  rw [temporaries_eq] at h
  exact mem_nextOffsets h

section Temporaries

variable {moves : List Move} {temporaries : List Int}

theorem map_dst_savingMoves (moves : List Move) (hlen : temporaries.length = moves.length) :
    (savingMoves moves temporaries).map Move.dst = temporaries := by
  rw [savingMoves, List.map_map]
  exact List.map_snd_zip (Nat.le_of_eq hlen)

theorem map_dst_restoringMoves (moves : List Move) (hlen : temporaries.length = moves.length) :
    (restoringMoves moves temporaries).map Move.dst = moves.map Move.dst := by
  rw [restoringMoves, List.map_map]
  have hdst : (Move.dst ∘ fun p : Move × Int => (⟨p.1.ty, p.2, p.1.dst⟩ : Move)) = Move.dst ∘ Prod.fst := rfl
  rw [hdst, ← List.map_map, List.map_fst_zip (Nat.le_of_eq hlen.symm)]

theorem mem_savingMoves {mv : Move} (h : mv ∈ savingMoves moves temporaries) :
    ∃ mv₀ ∈ moves, mv.src = mv₀.src ∧ mv.dst ∈ temporaries := by
  obtain ⟨⟨mv₀, t⟩, hzip, rfl⟩ := List.mem_map.mp h
  exact ⟨mv₀, (List.of_mem_zip hzip).1, rfl, (List.of_mem_zip hzip).2⟩

theorem mem_restoringMoves {mv : Move} (h : mv ∈ restoringMoves moves temporaries) :
    ∃ mv₀ ∈ moves, mv.dst = mv₀.dst ∧ mv.src ∈ temporaries := by
  obtain ⟨⟨mv₀, t⟩, hzip, rfl⟩ := List.mem_map.mp h
  exact ⟨mv₀, (List.of_mem_zip hzip).1, rfl, (List.of_mem_zip hzip).2⟩

/-- Every move has a temporary. -/
theorem exists_temporary (hlen : temporaries.length = moves.length) {mv : Move} (h : mv ∈ moves) :
    ∃ t, (⟨mv.ty, mv.src, t⟩ : Move) ∈ savingMoves moves temporaries ∧
      (⟨mv.ty, t, mv.dst⟩ : Move) ∈ restoringMoves moves temporaries := by
  rw [← List.map_fst_zip (Nat.le_of_eq hlen.symm)] at h
  obtain ⟨⟨mv, t⟩, hzip, rfl⟩ := List.mem_map.mp h
  exact ⟨t, List.mem_map.mpr ⟨_, hzip, rfl⟩, List.mem_map.mpr ⟨_, hzip, rfl⟩⟩

/-- Saving every source and then restoring it from its temporary is the same as moving all at once. -/
theorem AtOnce.through {α : Type} {before between after : Int → α}
    (hlen : temporaries.length = moves.length)
    (hsaved : AtOnce (savingMoves moves temporaries) (fun _ => False) before between)
    (hrestored : AtOnce (restoringMoves moves temporaries) (fun _ => False) between after) :
    AtOnce moves (· ∈ temporaries) before after := by
  constructor
  · intro mv hmv
    obtain ⟨t, hsave, hrestore⟩ := exists_temporary hlen hmv
    exact (hrestored.moved _ hrestore).trans (hsaved.moved _ hsave)
  · intro offset hscratch hother
    have hlast : after offset = between offset := by
      apply hrestored.kept offset not_false
      intro mv hmv
      obtain ⟨mv₀, hmv₀, hdst, -⟩ := mem_restoringMoves hmv
      rw [hdst]
      exact hother mv₀ hmv₀
    have hfirst : between offset = before offset := by
      apply hsaved.kept offset not_false
      intro mv hmv he
      obtain ⟨-, -, -, hdst⟩ := mem_savingMoves hmv
      exact hscratch (he ▸ hdst)
    exact hlast.trans hfirst

end Temporaries

/-- **The schedule moves everything at once,** if the words that the moves name lie in the frame and no two
moves have the same destination. -/
theorem atOnce_schedule {α : Type} {f : Frame} {moves : List Move} (hnodup : (moves.map Move.dst).Nodup)
    (hbelow : ∀ mv ∈ moves, mv.src < f.size ∧ mv.dst < f.size) (words : Int → α) :
    AtOnce moves (· ∈ f.temporaries moves) words (carry words (f.schedule moves)) := by
  by_cases hover : overlap moves = true
  · have hlen : (f.temporaries moves).length = moves.length := by rw [length_temporaries, if_pos hover]
    rw [Frame.schedule, if_pos hover, carry_append]
    apply AtOnce.through hlen
    · -- the temporaries are no sources
      apply atOnce_carry
      · rw [map_dst_savingMoves moves hlen]
        exact nodup_temporaries f moves
      · intro r hr w hw he
        obtain ⟨mv, hmv, hsrc, -⟩ := mem_savingMoves hr
        obtain ⟨-, -, -, hdst⟩ := mem_savingMoves hw
        have hlt := (hbelow mv hmv).1
        have hle := (mem_temporaries hdst).1
        omega
    · -- the destinations are no temporaries
      apply atOnce_carry
      · rw [map_dst_restoringMoves moves hlen]
        exact hnodup
      · intro r hr w hw he
        obtain ⟨mv, hmv, hdst, -⟩ := mem_restoringMoves hw
        obtain ⟨-, -, -, hsrc⟩ := mem_restoringMoves hr
        have hlt := (hbelow mv hmv).2
        have hle := (mem_temporaries hsrc).1
        omega
  · rw [Frame.schedule, if_neg hover]
    have hapart : ∀ r ∈ moves, ∀ w ∈ moves, w.dst ≠ r.src := by
      simpa [overlap] using hover
    have hdirect := atOnce_carry hnodup hapart words
    exact ⟨hdirect.moved, fun offset _ => hdirect.kept offset not_false⟩

/-- The schedule names the words of the moves and the temporaries only. -/
theorem words_of_schedule {f : Frame} {moves : List Move} {P : Int → Prop}
    (hwords : ∀ mv ∈ moves, P mv.src ∧ P mv.dst) (htemporaries : ∀ t ∈ f.temporaries moves, P t) :
    ∀ mv ∈ f.schedule moves, P mv.src ∧ P mv.dst := by
  intro mv hmv
  unfold Frame.schedule at hmv
  split at hmv
  · rcases List.mem_append.mp hmv with hsave | hrestore
    · obtain ⟨mv₀, hmv₀, hsrc, hdst⟩ := mem_savingMoves hsave
      exact ⟨hsrc ▸ (hwords mv₀ hmv₀).1, htemporaries _ hdst⟩
    · obtain ⟨mv₀, hmv₀, hdst, hsrc⟩ := mem_restoringMoves hrestore
      exact ⟨htemporaries _ hsrc, hdst ▸ (hwords mv₀ hmv₀).2⟩
  · exact hwords mv hmv

/-! ## The lines that are written -/

theorem length_words_scheduled (f : Frame) (moves : List Move) :
    (f.words ++ (moves.zip (f.temporaries moves)).map fun p => p.1.ty.isPointer).length =
      f.words.length + (f.temporaries moves).length := by
  rw [List.length_append, List.length_map, List.length_zip, length_temporaries]
  split <;> omega

/-- Lines for moves are the lines of the schedule, and the frame grows by the temporaries. -/
theorem Moved.scheduled {moves : List Move} {s s' : State} {lines : List Line} (h : Moved moves s lines s') :
    lines = directLines (s.frame.schedule moves) ∧
      s' = { s with frame :=
        ⟨s.frame.words ++ (moves.zip (s.frame.temporaries moves)).map fun p => p.1.ty.isPointer⟩ } := by
  cases h with
  | direct hapart => simp [Frame.schedule, Frame.temporaries, hapart]
  | through hover =>
    have hlen : moves.length ≤ (s.frame.temporaries moves).length :=
      Nat.le_of_eq (by rw [length_temporaries, if_pos hover])
    have hmarks : (moves.zip (s.frame.temporaries moves)).map (fun p => p.1.ty.isPointer) =
        moves.map fun mv => mv.ty.isPointer := by
      conv => rhs; rw [← List.map_fst_zip hlen]
      rw [List.map_map]
      rfl
    rw [hmarks]
    simp [Frame.schedule, Frame.temporaries, hover, directLines]

theorem allocateAll_total {pointers : List Bool} {s : State}
    (h : FitsInt32 (wordOffset s.frame.size pointers.length)) :
    ∃ offsets s', allocateAll pointers s = .ok offsets s' := by
  unfold allocateAll
  induction pointers generalizing s with
  | nil => exact ⟨[], s, mapM_nil_ok_iff.mpr ⟨rfl, rfl⟩⟩
  | cons p pointers ih =>
    have hpos : 0 ≤ s.frame.size := by
      unfold Frame.size wordOffset headerBytes wordBytes
      omega
    have hnext : Frame.size ⟨s.frame.words ++ [p]⟩ = s.frame.size + wordBytes := by
      simp only [Frame.size, wordOffset, List.length_append, List.length_singleton]
      unfold wordBytes
      omega
    have hfits : FitsInt32 (s.frame.size + wordBytes) := by
      simp only [wordOffset, List.length_cons] at h
      unfold FitsInt32 wordBytes at *
      omega
    have hfirst : allocate p s = .ok s.frame.size { s with frame := ⟨s.frame.words ++ [p]⟩ } :=
      allocate_ok_iff.mpr ⟨hfits, rfl, rfl⟩
    obtain ⟨offsets, s', hrest⟩ := @ih { s with frame := ⟨s.frame.words ++ [p]⟩ } (by
      show FitsInt32 (wordOffset (Frame.size ⟨s.frame.words ++ [p]⟩) pointers.length)
      rw [hnext]
      simp only [wordOffset, List.length_cons] at h ⊢
      unfold FitsInt32 wordBytes at *
      omega)
    exact ⟨_, s', mapM_cons_ok_iff.mpr ⟨_, _, offsets, hfirst, hrest, rfl⟩⟩

/-- Lines for moves are written unless the temporaries make the frame too large. -/
theorem moveAll_total {moves : List Move} {s : State}
    (h : overlap moves = true → FitsInt32 (wordOffset s.frame.size moves.length)) :
    ∃ lines s', moveAll moves s = .ok lines s' := by
  unfold moveAll
  by_cases hover : overlap moves = true
  · rw [if_pos hover]
    have hfits := h hover
    rw [← List.length_map (·.ty.isPointer)] at hfits
    obtain ⟨offsets, s', halloc⟩ := allocateAll_total hfits
    exact ⟨_, s', bind_ok_iff.mpr ⟨offsets, s', halloc, pure_ok_iff.mpr ⟨rfl, rfl⟩⟩⟩
  · rw [if_neg hover]
    exact ⟨_, s, pure_ok_iff.mpr ⟨rfl, rfl⟩⟩

/-- A temporary is a pointer exactly if the value that it keeps is. -/
theorem hasPointer_temporary {f f' : Frame} {moves : List Move} {id : Int} {d : TypeDescriptor}
    (hwords : f'.words = f.words ++ (moves.zip (f.temporaries moves)).map fun p => p.1.ty.isPointer)
    (hd : f'.descriptor id = .ok d) {p : Move × Int} (hp : p ∈ moves.zip (f.temporaries moves)) :
    d.hasPointer p.2 = p.1.ty.isPointer := by
  obtain ⟨k, hk⟩ := List.mem_iff_getElem?.mp hp
  have hplace : p.2 = wordOffset headerBytes (f.words.length + k) := by
    have htemporary := (List.getElem?_zip_eq_some.mp hk).2
    rw [temporaries_eq, Frame.nextOffsets, List.getElem?_map] at htemporary
    obtain ⟨index, hindex, hoffset⟩ := Option.map_eq_some_iff.mp htemporary
    obtain ⟨hlt, hindex⟩ := List.getElem?_eq_some_iff.mp hindex
    rw [List.getElem_range] at hindex
    rw [← hoffset, hindex]
  have hmark : f'.words[f.words.length + k]? = some p.1.ty.isPointer := by
    rw [hwords, List.getElem?_append_right (Nat.le_add_right _ _), Nat.add_sub_cancel_left,
      List.getElem?_map, hk]
    rfl
  rw [hplace]
  exact describe_marks hd headerBytes_eq hmark

/-! ## The machine -/

section Runs

variable {P : Platform} {fragment : Fragment} {starts : List Nat}

/-- A move. -/
theorem moveLine_step {m m' : Machine} {ty : Ty} {src dst : Operand} {rest : List Line}
    (hplaced : Placed starts fragment.code m.pc (moveLine ty src dst :: rest)) {w : Datum}
    (hread : m.read? src = some w) (hwrite : m.write? w dst = some m') :
    m.step? P fragment = some m'.next :=
  Machine.step?_move hplaced.settled.1 (action?_moveOpcode ty) hread hwrite

/-- A move to a word of the frame. -/
theorem moveLine_step_fp {m : Machine} {ty : Ty} {src : Operand} {dst : Int} {rest : List Line}
    (hplaced : Placed starts fragment.code m.pc (moveLine ty src (.fp dst) :: rest)) {w : Datum}
    (hread : m.read? src = some w) {frame : Area} (hstore : m.frame.store? dst w = some frame) :
    m.step? P fragment = some { m with pc := m.pc + 1, frame } := by
  have hwrite : m.write? w (.fp dst) = some { m with frame } := by simp [Machine.write?, hstore]
  exact moveLine_step hplaced hread hwrite

/-- **The machine does with its frame what moves do with words,** as long as the words are there. -/
theorem directLines_run {moves : List Move} {m : Machine} {rest : List Line}
    (hplaced : Placed starts fragment.code m.pc (directLines moves ++ rest))
    (hreadable : ∀ mv ∈ moves, (m.frame.word? mv.src).isSome ∧ (m.frame.word? mv.dst).isSome) :
    ∃ frame : Area, m.Reaches P fragment { m with pc := m.pc + moves.length, frame } ∧
      frame.length = m.frame.length ∧ frame.word? = carry m.frame.word? moves := by
  induction moves generalizing m with
  | nil => exact ⟨m.frame, .refl, rfl, rfl⟩
  | cons mv moves ih =>
    obtain ⟨hsrc, hdst⟩ := hreadable mv List.mem_cons_self
    obtain ⟨w, hw⟩ := Option.isSome_iff_exists.mp hsrc
    obtain ⟨frame, hstore⟩ := Area.exists_store? hdst w
    have hstep := moveLine_step_fp (P := P) hplaced hw hstore
    have hwords : frame.word? = Function.update m.frame.word? mv.dst (m.frame.word? mv.src) := by
      funext offset
      by_cases hself : offset = mv.dst
      · rw [hself, Function.update_self, hw, Area.word?_store?_self hstore]
      · rw [Function.update_of_ne hself, Area.word?_store?_of_ne hstore hself]
    -- after the first move the other words can still be read and written
    have hstill {offset : Int} (h : (m.frame.word? offset).isSome) : (frame.word? offset).isSome := by
      by_cases hself : offset = mv.dst
      · rw [hself, Area.word?_store?_self hstore]
        rfl
      · rw [Area.word?_store?_of_ne hstore hself]
        exact h
    obtain ⟨frame', hreach, hlength, hcarried⟩ := @ih { m with pc := m.pc + 1, frame } hplaced.2 (by
      intro mv' hmv'
      obtain ⟨hsrc', hdst'⟩ := hreadable mv' (List.mem_cons_of_mem _ hmv')
      exact ⟨hstill hsrc', hstill hdst'⟩)
    refine ⟨frame', ?_, hlength.trans (Area.length_store? hstore), ?_⟩
    · have hpc : m.pc + (mv :: moves).length = m.pc + 1 + moves.length := by
        rw [List.length_cons]
        omega
      rw [hpc]
      exact .step hstep hreach
    · rw [hcarried]
      show carry frame.word? moves = carry m.frame.word? (mv :: moves)
      rw [hwords]
      rfl

end Runs

/-! ## The whole -/

/-- **Moves are made as if at the same time.** -/
theorem moveAll_simultaneous (moves : List Move) (s : State) (hdistinct : (moves.map Move.dst).Nodup)
    (hbelow : ∀ mv ∈ moves, mv.src < s.frame.size ∧ mv.dst < s.frame.size)
    (hfits : overlap moves = true → FitsInt32 (wordOffset s.frame.size moves.length)) :
    ∃ lines s' temporaries, moveAll moves s = .ok lines s' ∧
      -- Whatever the words hold, every destination gets what its source held, and only temporaries change
      -- besides.
      (∀ {α : Type} (words : Int → α), ∃ after, lines.foldlM Line.onWords? words = some after ∧
        (∀ mv ∈ moves, after mv.dst = words mv.src) ∧
        ∀ offset, offset ∉ temporaries → (∀ mv ∈ moves, mv.dst ≠ offset) → after offset = words offset) ∧
      -- The temporaries are new words, one for each move if there are any.
      temporaries = s.frame.nextOffsets temporaries.length ∧ temporaries.Nodup ∧
      (∀ t ∈ temporaries, s.frame.size ≤ t ∧ t < s'.frame.size) ∧
      temporaries.length = (if overlap moves then moves.length else 0) ∧
      -- They are marked as the types of the moves ask for, and nothing else is new.
      s' = { s with frame :=
        ⟨s.frame.words ++ (moves.zip temporaries).map fun p => p.1.ty.isPointer⟩ } ∧
      (∀ id d, s'.frame.descriptor id = .ok d →
        ∀ p ∈ moves.zip temporaries, d.hasPointer p.2 = p.1.ty.isPointer) ∧
      -- The machine does the same with its frame, wherever the lines lie in its code.
      ∀ P fragment starts (m : Machine), Placed starts fragment.code m.pc lines →
        (∀ mv ∈ moves, (m.frame.word? mv.src).isSome ∧ (m.frame.word? mv.dst).isSome) →
        (∀ t ∈ temporaries, (m.frame.word? t).isSome) →
        ∃ frame : Area, m.Reaches P fragment { m with pc := m.pc + lines.length, frame } ∧
          frame.length = m.frame.length ∧ lines.foldlM Line.onWords? m.frame.word? = some frame.word? := by
  obtain ⟨lines, s', hmoved⟩ := moveAll_total hfits
  obtain ⟨rfl, rfl⟩ := (moveAll_ok hmoved).scheduled
  refine ⟨_, _, s.frame.temporaries moves, hmoved, ?_, temporaries_eq s.frame moves,
    nodup_temporaries s.frame moves, ?_, length_temporaries s.frame moves, rfl, ?_, ?_⟩
  · intro α words
    have honce := atOnce_schedule hdistinct hbelow words
    exact ⟨_, onWords?_directLines words _, honce.moved, honce.kept⟩
  · intro t ht
    obtain ⟨hbehind, hword⟩ := mem_temporaries ht
    exact ⟨hbehind, FrameWord.lt (hword.mono (Nat.le_of_eq (length_words_scheduled s.frame moves).symm))⟩
  · intro id d hd p hp
    exact hasPointer_temporary rfl hd hp
  · intro P fragment starts m hplaced hnamed htemporaries
    rw [← List.append_nil (directLines _)] at hplaced
    obtain ⟨frame, hreach, hlength, hwords⟩ :=
      directLines_run (P := P) hplaced (words_of_schedule hnamed htemporaries)
    refine ⟨frame, ?_, hlength, ?_⟩
    · rw [directLines, List.length_map]
      exact hreach
    · rw [onWords?_directLines, hwords]

/-- Two words that change places while one of them also goes elsewhere, and a word that goes its own way. -/
def tangled : List Move := [⟨.string, 64, 72⟩, ⟨.string, 72, 64⟩, ⟨.string, 72, 80⟩, ⟨.int, 88, 96⟩]

/-- A state whose frame has the words of `tangled`. -/
def tangledState : State :=
  ⟨Context.initial { sourcePath := "tangled" } {}, ⟨[true, true, true, false, false]⟩, [], []⟩

theorem moveAll_simultaneous_tangled :
    (tangled.map Move.dst).Nodup ∧ overlap tangled = true ∧
      ∃ lines s', moveAll tangled tangledState = .ok lines s' ∧
        s'.frame.words = [true, true, true, false, false, true, true, true, false] ∧
        ∀ words : Int → Nat, ∃ after, lines.foldlM Line.onWords? words = some after ∧
          after 72 = words 64 ∧ after 64 = words 72 ∧ after 80 = words 72 ∧ after 96 = words 88 ∧
          after 88 = words 88 := by
  refine ⟨by decide, by decide, ?_⟩
  obtain ⟨lines, s', temporaries, hok, heffect, hnext, -, hbehind, hcount, rfl, -⟩ :=
    moveAll_simultaneous tangled tangledState (by decide) (by decide) (fun _ => by decide)
  have hfour : temporaries.length = 4 := hcount
  refine ⟨lines, _, hok, ?_, ?_⟩
  · rw [hnext, hfour]
    rfl
  · intro words
    obtain ⟨after, hrun, hmoved, hkept⟩ := heffect words
    have hold : (88 : Int) ∉ temporaries := by
      intro h
      exact absurd (hbehind 88 h).1 (by decide)
    exact ⟨after, hrun, hmoved ⟨.string, 64, 72⟩ (by decide), hmoved ⟨.string, 72, 64⟩ (by decide),
      hmoved ⟨.string, 72, 80⟩ (by decide), hmoved ⟨.int, 88, 96⟩ (by decide),
      hkept 88 hold (by decide)⟩

end DisBackend
