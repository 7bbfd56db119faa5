import Mathlib.Data.List.Dedup

/-!
# `Proofs.Distinct` — the first elements of each key

Tables of the library grow by what is new: an element is added at the end unless there is one with its key
already. A table that was filled this way holds the first element of each key, in the order of their first
occurrences.

## Contents

* `addNew` — a list with one more element, if it is new;
* `distinctBy` — the first elements of each key;
* `foldl_addNew`, `prefix_foldl_addNew` — filling a table;
* `mem_distinctBy_iff`, `map_key_distinctBy`, `nodup_key_distinctBy`, `eraseDups_map` — what is in it;
* `eraseDups_perm` — filling it in another order.
-/

namespace DisBackend

variable {α β : Type} [DecidableEq β]

/-- A list with one more element at its end, unless it has one with the same key. -/
def addNew (key : α → β) (xs : List α) (x : α) : List α := if key x ∈ xs.map key then xs else xs ++ [x]

/-- The first element of each key. -/
def distinctBy (key : α → β) (xs : List α) : List α := xs.eraseDupsBy fun a b => key a == key b

section Keys

variable {key : α → β}

theorem distinctBy_cons (x : α) (xs : List α) :
    distinctBy key (x :: xs) = x :: distinctBy key (xs.filter fun y => key y ≠ key x) := by
  unfold distinctBy
  rw [List.eraseDupsBy_cons]
  simp only [beq_eq_false_iff_ne]

/-- Where all keys differ already, only what comes after is looked at. -/
theorem distinctBy_append {xs : List α} (h : (xs.map key).Nodup) (ys : List α) :
    distinctBy key (xs ++ ys) = xs ++ distinctBy key (ys.filter fun y => key y ∉ xs.map key) := by
  induction xs generalizing ys with
  | nil => simp
  | cons x xs ih =>
    rw [List.map_cons, List.nodup_cons] at h
    have hxs : (xs.filter fun y => key y ≠ key x) = xs := by
      rw [List.filter_eq_self]
      intro y hy
      exact decide_eq_true fun he => h.1 (he ▸ List.mem_map_of_mem hy)
    rw [List.cons_append, distinctBy_cons, List.filter_append, hxs, ih h.2, List.filter_filter,
      List.cons_append]
    congr 3
    refine List.filter_congr fun y _ => ?_
    rw [← Bool.decide_and, decide_eq_decide, List.map_cons, List.mem_cons, not_or, and_comm]

theorem distinctBy_of_nodup {xs : List α} (h : (xs.map key).Nodup) : distinctBy key xs = xs := by
  have happend := distinctBy_append h []
  rw [List.append_nil, List.filter_nil] at happend
  exact happend.trans (List.append_nil xs)

theorem nodup_addNew {xs : List α} (h : (xs.map key).Nodup) (x : α) : ((addNew key xs x).map key).Nodup := by
  unfold addNew
  split
  · exact h
  · next hnew =>
    rw [List.map_append, List.map_singleton, ← List.concat_eq_append]
    exact h.concat hnew

/-- **A table that is filled with what is new holds the first element of each key.** -/
theorem foldl_addNew {xs : List α} (h : (xs.map key).Nodup) (ys : List α) :
    ys.foldl (addNew key) xs = distinctBy key (xs ++ ys) := by
  induction ys generalizing xs with
  | nil => rw [List.foldl_nil, List.append_nil, distinctBy_of_nodup h]
  | cons y ys ih =>
    rw [List.foldl_cons, ih (nodup_addNew h y)]
    unfold addNew
    split
    · next hold =>
      rw [distinctBy_append h, distinctBy_append h, List.filter_cons_of_neg (by simpa using hold)]
    · rw [List.append_assoc, List.singleton_append]

/-- Nothing is added if all keys are there. -/
theorem foldl_addNew_of_subset {xs ys : List α} (h : ∀ y ∈ ys, key y ∈ xs.map key) :
    ys.foldl (addNew key) xs = xs := by
  induction ys with
  | nil => rfl
  | cons y ys ih =>
    rw [List.forall_mem_cons] at h
    rw [List.foldl_cons, addNew, if_pos h.1, ih h.2]

/-- What a table holds stays where it is. -/
theorem prefix_foldl_addNew (xs ys : List α) : xs <+: ys.foldl (addNew key) xs := by
  induction ys generalizing xs with
  | nil => exact List.prefix_rfl
  | cons y ys ih =>
    refine List.IsPrefix.trans ?_ (ih (addNew key xs y))
    unfold addNew
    split
    · exact List.prefix_rfl
    · exact List.prefix_append xs [y]

theorem findIdx?_key_eq_none_iff {xs : List α} {b : β} :
    xs.findIdx? (key · == b) = none ↔ b ∉ xs.map key := by
  rw [List.findIdx?_eq_none_iff, List.mem_map]
  simp

theorem distinctBy_sublist : (xs : List α) → List.Sublist (distinctBy key xs) xs
  | [] => .slnil
  | x :: xs => by
    rw [distinctBy_cons]
    exact ((distinctBy_sublist (xs.filter _)).trans List.filter_sublist).cons_cons x
  termination_by xs => xs.length
  decreasing_by exact Nat.lt_succ_of_le (List.length_filter_le _ _)

/-- **An element is in a table if it is the first of its key.** -/
theorem mem_distinctBy_iff {x : α} : (xs : List α) →
    (x ∈ distinctBy key xs ↔ xs.find? (fun y => key y == key x) = some x)
  | [] => by simp [distinctBy]
  | y :: ys => by
    rw [distinctBy_cons, List.mem_cons, mem_distinctBy_iff (ys.filter _), List.find?_filter]
    by_cases hkey : key y = key x
    · have hnone :
          ys.find? (fun z => decide (decide (key z ≠ key y) = true ∧ (key z == key x) = true)) = none := by
        simp [hkey]
      rw [hnone, List.find?_cons_of_pos (by simpa using hkey)]
      simp [eq_comm]
    · have hne : x ≠ y := fun h => hkey (congrArg key h.symm)
      have hlater (z : α) : decide (decide (key z ≠ key y) = true ∧ (key z == key x) = true)
          = (key z == key x) := by
        by_cases hz : key z = key x
        · simp [hz, Ne.symm hkey]
        · simp [hz]
      simp only [hlater, or_iff_right hne]
      rw [List.find?_cons_of_neg (by simpa using hkey)]
  termination_by xs => xs.length
  decreasing_by exact Nat.lt_succ_of_le (List.length_filter_le _ _)

/-- The keys of a table. -/
theorem map_key_distinctBy : (xs : List α) → (distinctBy key xs).map key = (xs.map key).eraseDups
  | [] => rfl
  | x :: xs => by
    rw [distinctBy_cons, List.map_cons, map_key_distinctBy (xs.filter _), List.map_cons, List.eraseDups_cons,
      List.filter_map]
    congr 3
    refine List.filter_congr fun y _ => ?_
    rw [Function.comp_apply, ← bne, Bool.eq_iff_iff, decide_eq_true_iff, bne_iff_ne]
  termination_by xs => xs.length
  decreasing_by exact Nat.lt_succ_of_le (List.length_filter_le _ _)

end Keys

/-! ## Elements as their own keys -/

theorem nodup_eraseDups : (xs : List β) → xs.eraseDups.Nodup
  | [] => List.nodup_nil
  | x :: xs => by
    rw [List.eraseDups_cons, List.nodup_cons, List.mem_eraseDups, List.mem_filter]
    exact ⟨by simp, nodup_eraseDups (xs.filter _)⟩
  termination_by xs => xs.length
  decreasing_by exact Nat.lt_succ_of_le (List.length_filter_le _ _)

theorem nodup_key_distinctBy (key : α → β) (xs : List α) : ((distinctBy key xs).map key).Nodup := by
  rw [map_key_distinctBy]
  exact nodup_eraseDups _

/-- A key that tells all elements apart is as good as the elements. -/
theorem distinctBy_of_injective [DecidableEq α] {key : α → β} :
    {xs : List α} → (∀ x ∈ xs, ∀ y ∈ xs, key x = key y → x = y) → distinctBy key xs = xs.eraseDups
  | [], _ => rfl
  | x :: xs, h => by
    have hfilter : (xs.filter fun y => key y ≠ key x) = xs.filter fun y => !y == x := by
      refine List.filter_congr fun y hy => ?_
      rw [← bne, Bool.eq_iff_iff, decide_eq_true_iff, bne_iff_ne]
      exact not_congr ⟨h y (List.mem_cons_of_mem _ hy) x List.mem_cons_self, congrArg key⟩
    rw [distinctBy_cons, List.eraseDups_cons, hfilter]
    congr 1
    refine distinctBy_of_injective fun y hy z hz => ?_
    exact h y (List.mem_cons_of_mem _ (List.mem_of_mem_filter hy)) z
      (List.mem_cons_of_mem _ (List.mem_of_mem_filter hz))
  termination_by xs => xs.length
  decreasing_by exact Nat.lt_succ_of_le (List.length_filter_le _ _)

/-- A function that tells all elements apart may be applied before or after. -/
theorem eraseDups_map [DecidableEq α] {g : α → β} {xs : List α}
    (h : ∀ x ∈ xs, ∀ y ∈ xs, g x = g y → x = y) : (xs.map g).eraseDups = xs.eraseDups.map g := by
  rw [← map_key_distinctBy, distinctBy_of_injective h]

/-- Tables that were filled with the same elements hold the same. -/
theorem eraseDups_perm {xs ys : List β} (h : xs.Perm ys) : xs.eraseDups.Perm ys.eraseDups := by
  rw [List.perm_ext_iff_of_nodup (nodup_eraseDups xs) (nodup_eraseDups ys)]
  intro x
  rw [List.mem_eraseDups, List.mem_eraseDups]
  exact h.mem_iff

end DisBackend
