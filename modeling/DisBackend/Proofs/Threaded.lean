import Mathlib.Data.List.Forall2

/-!
# `Proofs.Threaded` — a state carried along a list

The passes of the library go over a list, produce something for each element and hand a state from one
element to the next. `Threaded R` is that shape for a step relation `R`: from it one can look at a single
element, with the state before and after it and the two parts of the pass around it.

## Contents

* `Threaded`, `Threaded.length_eq`;
* `Threaded.preserves`, `Threaded.invariant` — what every step preserves, the pass preserves;
* `Threaded.foldl` — what the pass does to a part of the state;
* `Threaded.split`, `Threaded.exists_of_mem` — the pass around one element;
* `Threaded.flatten` — nested passes as one;
* `Threaded.states` — the states in between.
-/

namespace DisBackend

variable {σ α β : Type}

/-- `R` takes the state from one element of a list to the next and produces the elements of another. -/
inductive Threaded (R : σ → α → β → σ → Prop) : σ → List α → List β → σ → Prop where
  | nil {s : σ} : Threaded R s [] [] s
  | cons {s t u : σ} {a : α} {b : β} {as : List α} {bs : List β} (head : R s a b t)
      (tail : Threaded R t as bs u) : Threaded R s (a :: as) (b :: bs) u

namespace Threaded

variable {R : σ → α → β → σ → Prop} {s u : σ} {as : List α} {bs : List β}

theorem length_eq (h : Threaded R s as bs u) : as.length = bs.length := by
  induction h with
  | nil => rfl
  | cons _ _ ih => rw [List.length_cons, List.length_cons, ih]

/-- A relation between states that every step respects relates the ends of the pass. -/
theorem preserves {le : σ → σ → Prop} (refl : ∀ s, le s s)
    (trans : ∀ {s t u}, le s t → le t u → le s u)
    (step : ∀ {s a b t}, R s a b t → le s t) (h : Threaded R s as bs u) : le s u := by
  induction h with
  | nil => exact refl _
  | cons hhead _ ih => exact trans (step hhead) ih

/-- What every step keeps holds at the end of the pass if it holds at its start. -/
theorem invariant {P : σ → Prop} (step : ∀ {s a b t}, R s a b t → P s → P t) (h : Threaded R s as bs u)
    (hs : P s) : P u := by
  induction h with
  | nil => exact hs
  | cons hhead _ ih => exact ih (step hhead hs)

/-- What each step does to a part of the state, the pass does one step after the other. -/
theorem foldl {γ : Type} (view : σ → γ) (step : γ → α → γ)
    (hstep : ∀ {s a b t}, R s a b t → view t = step (view s) a) (h : Threaded R s as bs u) :
    view u = as.foldl step (view s) := by
  induction h with
  | nil => rfl
  | cons hhead _ ih => rw [ih, hstep hhead, List.foldl_cons]

/-- The pass around its element number `k`. -/
theorem split (h : Threaded R s as bs u) {k : Nat} {a : α} (hk : as[k]? = some a) :
    ∃ b t t', bs[k]? = some b ∧ Threaded R s (as.take k) (bs.take k) t ∧ R t a b t' ∧
      Threaded R t' (as.drop (k + 1)) (bs.drop (k + 1)) u := by
  induction h generalizing k with
  | nil => simp at hk
  | cons hhead htail ih =>
    cases k with
    | zero =>
      simp only [List.getElem?_cons_zero, Option.some.injEq] at hk
      subst hk
      exact ⟨_, _, _, rfl, .nil, hhead, htail⟩
    | succ k =>
      obtain ⟨b, t, t', hb, hbefore, hstep, hafter⟩ := ih hk
      exact ⟨b, t, t', hb, .cons hhead hbefore, hstep, hafter⟩

/-- Whatever was produced was produced by a step. -/
theorem exists_of_mem (h : Threaded R s as bs u) {b : β} (hb : b ∈ bs) : ∃ t a t', R t a b t' := by
  induction h with
  | nil => cases hb
  | cons hhead _ ih =>
    rcases List.mem_cons.mp hb with rfl | hb
    · exact ⟨_, _, _, hhead⟩
    · exact ih hb

theorem append {t : σ} {as' : List α} {bs' : List β} (h : Threaded R s as bs t)
    (h' : Threaded R t as' bs' u) : Threaded R s (as ++ as') (bs ++ bs') u := by
  induction h with
  | nil => exact h'
  | cons hhead _ ih => exact .cons hhead (ih h')

/-- A pass over lists, each of which belongs to an element of another list, is one pass over all of
them. -/
theorem flatten {γ : Type} {Q : γ → σ → α → β → σ → Prop} {inner : γ → List α} {gs : List γ}
    {bss : List (List β)}
    (h : Threaded (fun s g bs t => Threaded (Q g) s (inner g) bs t) s gs bss u) :
    Threaded (fun s (p : γ × α) b t => Q p.1 s p.2 b t) s
      (gs.flatMap fun g => (inner g).map fun a => (g, a)) bss.flatten u := by
  induction h with
  | nil => exact .nil
  | @cons s t u g bs gs bss hhead _ ih =>
    rw [List.flatMap_cons, List.flatten_cons]
    have hpart : ∀ {s as bs t}, Threaded (Q g) s as bs t →
        Threaded (fun s (p : γ × α) b t => Q p.1 s p.2 b t) s (as.map fun a => (g, a)) bs t := by
      intro s as bs t h
      induction h with
      | nil => exact .nil
      | cons hhead _ ih => exact .cons hhead ih
    exact (hpart hhead).append ih

/-- The states of a pass, numbered. -/
theorem states (h : Threaded R s as bs u) :
    ∃ state : Nat → σ, state 0 = s ∧ state as.length = u ∧
      ∀ (k : Nat) (a : α) (b : β), as[k]? = some a → bs[k]? = some b →
        R (state k) a b (state (k + 1)) := by
  induction h with
  | @nil s => exact ⟨fun _ => s, rfl, rfl, by simp⟩
  | @cons s t u a b as bs hhead _ ih =>
    obtain ⟨state, hfirst, hlast, hstep⟩ := ih
    refine ⟨fun k => if k = 0 then s else state (k - 1), rfl, ?_, fun k a' b' ha hb => ?_⟩
    · rw [List.length_cons]
      exact hlast
    · cases k with
      | zero =>
        cases ha
        cases hb
        show R s a b (state 0)
        rw [hfirst]
        exact hhead
      | succ k => exact hstep k a' b' ha hb

end Threaded
end DisBackend
