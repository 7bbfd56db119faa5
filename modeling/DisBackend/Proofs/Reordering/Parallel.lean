import DisBackend.Proofs.Outcome

/-!
# `Proofs.Reordering.Parallel` — two computations side by side

Two runs of the compiler on programs that are nearly the same do nearly the same. `Parallel` says that two
computations which start in related states end alike: both with results, which are related, in related
states, or both with reasons to stop, which are related. It is established along the two computations,
without unfolding the monad.

## Contents

* `Alike`, `Alike.bind` — outcomes that are alike, and one computation after the other;
* `Parallel`, `Parallel.bind`, `Parallel.mapM`, … — computations that always end alike.
-/

namespace DisBackend

/-- Two outcomes are alike: the results are related by `Q` and the states by `R`, or the reasons to stop
are related by `E`. -/
inductive Alike {ε σ α : Type} (E : ε → ε → Prop) (R : σ → σ → Prop) (Q : α → α → Prop) :
    EStateM.Result ε σ α → EStateM.Result ε σ α → Prop
  | ok {a a' : α} {s s' : σ} (result : Q a a') (state : R s s') : Alike E R Q (.ok a s) (.ok a' s')
  | error {e e' : ε} {s s' : σ} (reason : E e e') : Alike E R Q (.error e s) (.error e' s')

section Outcomes

variable {ε σ α β : Type} {E : ε → ε → Prop} {R S : σ → σ → Prop} {P : α → α → Prop} {Q : β → β → Prop}

/-- What the two outcomes are. -/
theorem Alike.outcomes {r r' : EStateM.Result ε σ α} (h : Alike E R P r r') :
    (∃ a t a' t', r = .ok a t ∧ r' = .ok a' t' ∧ P a a' ∧ R t t') ∨
      ∃ e t e' t', r = .error e t ∧ r' = .error e' t' ∧ E e e' := by
  cases h with
  | ok hresult hstate => exact .inl ⟨_, _, _, _, rfl, rfl, hresult, hstate⟩
  | error hreason => exact .inr ⟨_, _, _, _, rfl, rfl, hreason⟩

/-- **One computation after the other.** The second ones are run only on what the first ones left. -/
theorem Alike.bind {x x' : EStateM ε σ α} {k k' : α → EStateM ε σ β} {s s' : σ}
    (hx : Alike E R P (x s) (x' s'))
    (hk : ∀ a a' t t', x s = .ok a t → x' s' = .ok a' t' → P a a' → R t t' →
      Alike E S Q (k a t) (k' a' t')) :
    Alike E S Q ((x >>= k) s) ((x' >>= k') s') := by
  show Alike E S Q (EStateM.bind x k s) (EStateM.bind x' k' s')
  unfold EStateM.bind
  obtain ⟨a, t, a', t', hrun, hrun', hresult, hstate⟩ | ⟨e, t, e', t', hrun, hrun', hreason⟩ := hx.outcomes
  · rw [hrun, hrun']
    exact hk a a' t t' hrun hrun' hresult hstate
  · rw [hrun, hrun']
    exact .error hreason

/-- Less may be said of outcomes that are alike. -/
theorem Alike.imp {E' : ε → ε → Prop} {P' : α → α → Prop} {r r' : EStateM.Result ε σ α}
    (h : Alike E R P r r') (hE : ∀ e e', E e e' → E' e e') (hP : ∀ a a', P a a' → P' a a') :
    Alike E' R P' r r' := by
  cases h with
  | ok hresult hstate => exact .ok (hP _ _ hresult) hstate
  | error hreason => exact .error (hE _ _ hreason)

/-- Computations that end alike, whatever related states they start in. -/
def Parallel (E : ε → ε → Prop) (R : σ → σ → Prop) (Q : α → α → Prop) (m m' : EStateM ε σ α) : Prop :=
  ∀ s s', R s s' → Alike E R Q (m s) (m' s')

end Outcomes

namespace Parallel

variable {ε σ α β : Type} {E : ε → ε → Prop} {R : σ → σ → Prop} {P : α → α → Prop} {Q : β → β → Prop}

theorem pure {a a' : α} (h : P a a') : Parallel E R P (pure a) (pure a') := by
  intro s s' hs
  exact .ok h hs

theorem throw {e e' : ε} (h : E e e') : Parallel E R P (throw e) (throw e') := by
  intro s s' _
  exact .error h

theorem get : Parallel E R R get get := by
  intro s s' hs
  exact .ok hs hs

theorem set {t t' : σ} (h : R t t') : Parallel E R Eq (set t) (set t') := by
  intro s s' _
  exact .ok rfl h

theorem modify {f f' : σ → σ} (h : ∀ s s', R s s' → R (f s) (f' s')) :
    Parallel E R Eq (modify f) (modify f') := by
  intro s s' hs
  exact .ok rfl (h s s' hs)

/-- **One computation after the other.** -/
theorem bind {x x' : EStateM ε σ α} {k k' : α → EStateM ε σ β} (hx : Parallel E R P x x')
    (hk : ∀ a a', P a a' → Parallel E R Q (k a) (k' a')) : Parallel E R Q (x >>= k) (x' >>= k') := by
  intro s s' hs
  refine (hx s s' hs).bind fun a a' t t' _ _ hresult hstate => ?_
  exact hk a a' hresult t t' hstate

/-- The first ones have the same result. -/
theorem bind_eq {x x' : EStateM ε σ α} {k k' : α → EStateM ε σ β} (hx : Parallel E R Eq x x')
    (hk : ∀ a, Parallel E R Q (k a) (k' a)) : Parallel E R Q (x >>= k) (x' >>= k') := by
  refine bind hx fun a a' ha => ?_
  rw [ha]
  exact hk a'

theorem ite {c : Prop} [Decidable c] {x x' y y' : EStateM ε σ α} (hx : c → Parallel E R P x x')
    (hy : ¬ c → Parallel E R P y y') : Parallel E R P (if c then x else y) (if c then x' else y') := by
  split
  · next hc => exact hx hc
  · next hc => exact hy hc

theorem mapM {g g' : α → EStateM ε σ β} {as : List α} (h : ∀ a, Parallel E R Eq (g a) (g' a)) :
    Parallel E R Eq (as.mapM g) (as.mapM g') := by
  induction as with
  | nil =>
    rw [List.mapM_nil, List.mapM_nil]
    exact .pure rfl
  | cons a as ih =>
    rw [List.mapM_cons, List.mapM_cons]
    exact .bind_eq (h a) fun b => .bind_eq ih fun bs => .pure rfl

end Parallel
end DisBackend
