import DisBackend.Compile
import DisBackend.Proofs.Lists

/-!
# `Proofs.Outcome` — computations that ended well, taken apart

Most of the library runs in `Except`, or in `EStateM` when there is state to thread. A fact about what
such a computation produced starts from the equation `m s = .ok a s'`. The lemmas below read that
equation backwards through each way of putting computations together, so that the proofs about a
computation never unfold the monad.

## Contents

* `EStateM`: `bind`, `pure`, `throw`, `get`, `set`, `modify`, `mapM`;
* `Except`: `bind`, `map`, `mapM`;
* `checkedAdd`, `checkedMul` — arithmetic that did not overflow;
* `Frame.allocate`, `ModuleData.allocate` — words that were handed out.
-/

namespace DisBackend

/-! ## Computations on a state -/

section State

variable {ε σ α β : Type} {s s' t : σ}

theorem bind_of_ok {x : EStateM ε σ α} {k : α → EStateM ε σ β} {a : α} (h : x s = .ok a s') :
    (x >>= k) s = k a s' := by
  show EStateM.bind x k s = _
  rw [EStateM.bind, h]

theorem bind_of_error {x : EStateM ε σ α} {k : α → EStateM ε σ β} {e : ε} (h : x s = .error e s') :
    (x >>= k) s = .error e s' := by
  show EStateM.bind x k s = _
  rw [EStateM.bind, h]

theorem bind_ok_iff {x : EStateM ε σ α} {k : α → EStateM ε σ β} {b : β} :
    (x >>= k) s = .ok b s' ↔ ∃ a t, x s = .ok a t ∧ k a t = .ok b s' := by
  show EStateM.bind x k s = _ ↔ _
  unfold EStateM.bind
  cases hx : x s with
  | ok a t =>
    constructor
    · intro h; exact ⟨a, t, rfl, h⟩
    · rintro ⟨a', t', he, h⟩; cases he; exact h
  | error e t =>
    constructor
    · intro h; cases h
    · rintro ⟨a', t', he, _⟩; cases he

theorem pure_ok_iff {a b : α} : (pure a : EStateM ε σ α) s = .ok b s' ↔ a = b ∧ s = s' := by
  show EStateM.Result.ok a s = .ok b s' ↔ _
  simp

theorem throw_ok_iff {e : ε} {a : α} : (throw e : EStateM ε σ α) s = .ok a s' ↔ False := by
  constructor
  · intro h; cases h
  · exact False.elim

theorem get_ok_iff : (get : EStateM ε σ σ) s = .ok t s' ↔ s = t ∧ s = s' := by
  show EStateM.Result.ok s s = .ok t s' ↔ _
  simp

theorem set_ok_iff {u : PUnit} : (set t : EStateM ε σ PUnit) s = .ok u s' ↔ t = s' := by
  show EStateM.Result.ok PUnit.unit t = .ok u s' ↔ _
  simp

theorem modify_ok_iff {f : σ → σ} {u : PUnit} :
    (modify f : EStateM ε σ PUnit) s = .ok u s' ↔ f s = s' := by
  show EStateM.Result.ok PUnit.unit (f s) = .ok u s' ↔ _
  simp

theorem map_ok_iff {x : EStateM ε σ α} {f : α → β} {b : β} :
    (f <$> x) s = .ok b s' ↔ ∃ a, x s = .ok a s' ∧ f a = b := by
  show EStateM.map f x s = _ ↔ _
  unfold EStateM.map
  cases hx : x s with
  | ok a t =>
    constructor
    · intro h; cases h; exact ⟨a, rfl, rfl⟩
    · rintro ⟨a', he, rfl⟩; cases he; rfl
  | error e t =>
    constructor
    · intro h; cases h
    · rintro ⟨a', he, _⟩; cases he

theorem mapM_nil_ok_iff {f : α → EStateM ε σ β} {bs : List β} :
    ([] : List α).mapM f s = .ok bs s' ↔ bs = [] ∧ s = s' := by
  rw [List.mapM_nil, pure_ok_iff]
  exact and_congr_left fun _ => eq_comm

theorem mapM_cons_ok_iff {f : α → EStateM ε σ β} {a : α} {as : List α} {bs : List β} :
    (a :: as).mapM f s = .ok bs s' ↔
      ∃ b t cs, f a s = .ok b t ∧ as.mapM f t = .ok cs s' ∧ bs = b :: cs := by
  simp only [List.mapM_cons, bind_ok_iff, pure_ok_iff]
  constructor
  · rintro ⟨b, t, hb, cs, u, hcs, rfl, rfl⟩
    exact ⟨b, t, cs, hb, hcs, rfl⟩
  · rintro ⟨b, t, cs, hb, hcs, rfl⟩
    exact ⟨b, t, hb, cs, s', hcs, rfl, rfl⟩

end State

/-! ## Computations without a state -/

section Plain

variable {ε α β : Type}

theorem except_bind_ok_iff {x : Except ε α} {k : α → Except ε β} {b : β} :
    (x >>= k) = .ok b ↔ ∃ a, x = .ok a ∧ k a = .ok b := by
  cases x with
  | ok a =>
    constructor
    · intro h; exact ⟨a, rfl, h⟩
    · rintro ⟨a', he, h⟩; cases he; exact h
  | error e =>
    constructor
    · intro h; cases h
    · rintro ⟨a', he, _⟩; cases he

theorem except_map_ok_iff {x : Except ε α} {f : α → β} {b : β} :
    x.map f = .ok b ↔ ∃ a, x = .ok a ∧ f a = b := by
  cases x <;> simp [Except.map]

theorem except_pure_ok_iff {a b : α} : (pure a : Except ε α) = .ok b ↔ a = b := by
  show Except.ok a = .ok b ↔ _
  simp

theorem except_mapM_ok_iff {f : α → Except ε β} {as : List α} {bs : List β} :
    as.mapM f = .ok bs ↔ List.Forall₂ (fun a b => f a = .ok b) as bs := by
  induction as generalizing bs with
  | nil =>
    rw [List.mapM_nil, except_pure_ok_iff]
    constructor
    · rintro rfl; exact .nil
    · intro h; cases h; rfl
  | cons a as ih =>
    simp only [List.mapM_cons, except_bind_ok_iff, except_pure_ok_iff]
    constructor
    · rintro ⟨b, hb, cs, hcs, rfl⟩
      exact .cons hb (ih.mp hcs)
    · intro h
      cases h with
      | cons hb hcs => exact ⟨_, hb, _, ih.mpr hcs, rfl⟩

end Plain

/-! ## Checked arithmetic -/

theorem checkedAdd_ok_iff {a b c : Int} :
    checkedAdd a b = .ok c ↔ FitsInt32 (a + b) ∧ a + b = c := by
  unfold checkedAdd
  split <;> simp [*]

theorem checkedMul_ok_iff {a b c : Int} :
    checkedMul a b = .ok c ↔ FitsInt32 (a * b) ∧ a * b = c := by
  unfold checkedMul
  split <;> simp [*]

/-! ## Storage -/

theorem Frame.allocate_ok_iff {f f' : Frame} {pointer : Bool} {offset : Int} :
    f.allocate pointer = .ok (offset, f') ↔
      FitsInt32 (f.size + wordBytes) ∧ offset = f.size ∧ f' = ⟨f.words ++ [pointer]⟩ := by
  simp only [Frame.allocate, except_bind_ok_iff, except_pure_ok_iff, checkedAdd_ok_iff,
    Prod.mk.injEq]
  constructor
  · rintro ⟨n, ⟨hfits, -⟩, rfl, rfl⟩; exact ⟨hfits, rfl, rfl⟩
  · rintro ⟨hfits, rfl, rfl⟩; exact ⟨_, ⟨hfits, rfl⟩, rfl, rfl⟩

theorem ModuleData.allocate_ok_iff {d d' : ModuleData} {tag : String} {pointer : Bool} {offset : Int} :
    d.allocate tag pointer = .ok (offset, d') ↔
      d.nextOffset ≤ operandMax - wordBytes ∧ offset = d.nextOffset ∧ d' = ⟨d.words ++ [pointer]⟩ := by
  unfold ModuleData.allocate
  by_cases hroom : d.nextOffset ≤ operandMax - wordBytes
  · rw [if_pos hroom]
    constructor
    · intro h
      cases h
      exact ⟨hroom, rfl, rfl⟩
    · rintro ⟨-, rfl, rfl⟩
      rfl
  · simp [hroom]

end DisBackend
