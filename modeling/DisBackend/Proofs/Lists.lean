import Mathlib.Algebra.GroupWithZero.Nat
import Mathlib.Data.List.Forall2

/-!
# `Proofs.Lists` — positions in lists

Words, cells, lines, instructions and descriptors are all found by their number in a list. These are the
ways in which numbers carry over from one list to another.

## Contents

* `getElem?_of_prefix` — a list that grew at its end;
* `getElem?_of_lookup` — a list of pairs;
* `forall₂_getElem?` — two lists that are related element by element;
* `getElem?_flatten`, `exists_of_getElem?_flatten`, `getElem?_flatMap`, `flatten_mapIdx_mapIdx` — lists one
  after the other.
-/

namespace DisBackend

variable {α β : Type}

/-- A list keeps its elements when more are added at the end. -/
theorem getElem?_of_prefix {xs ys : List α} (h : xs <+: ys) {k : Nat} {x : α}
    (hk : xs[k]? = some x) : ys[k]? = some x := by
  obtain ⟨rest, rfl⟩ := h
  obtain ⟨hlt, -⟩ := List.getElem?_eq_some_iff.mp hk
  rw [List.getElem?_append_left hlt]
  exact hk

theorem getElem?_of_lookup [BEq α] [LawfulBEq α] {l : List (α × β)} {a : α} {b : β}
    (h : l.lookup a = some b) : ∃ k : Nat, l[k]? = some (a, b) := by
  obtain ⟨l₁, l₂, rfl, -⟩ := List.lookup_eq_some_iff.mp h
  exact ⟨l₁.length, by simp⟩

/-- If no two members have one key, a member is found by its key. -/
theorem find?_of_nodup_map [BEq β] [LawfulBEq β] {key : α → β} {xs : List α} (h : (xs.map key).Nodup)
    {x : α} (hx : x ∈ xs) : xs.find? (key · == key x) = some x := by
  induction xs with
  | nil => cases hx
  | cons y xs ih =>
    rw [List.map_cons, List.nodup_cons] at h
    rcases List.mem_cons.mp hx with rfl | hx
    · exact List.find?_cons_of_pos (beq_self_eq_true _)
    · have hne : key y ≠ key x := fun he => h.1 (he ▸ List.mem_map_of_mem hx)
      rw [List.find?_cons_of_neg (by simpa using hne)]
      exact ih h.2 hx

/-- Corresponding elements of related lists. -/
theorem forall₂_getElem? {R : α → β → Prop} {as : List α} {bs : List β}
    (h : List.Forall₂ R as bs) {k : Nat} {a : α} (hk : as[k]? = some a) :
    ∃ b, bs[k]? = some b ∧ R a b := by
  induction h generalizing k with
  | nil => simp at hk
  | cons hhead _ ih =>
    cases k with
    | zero => cases hk; exact ⟨_, rfl, hhead⟩
    | succ k => exact ih hk

/-- An element of one of the lists that were put one after the other, found by its number. -/
theorem exists_of_getElem?_flatten {xss : List (List α)} {n : Nat} {x : α}
    (h : xss.flatten[n]? = some x) :
    ∃ (q r : Nat) (xs : List α), xss[q]? = some xs ∧ xs[r]? = some x ∧
      n = (xss.take q).flatten.length + r := by
  induction xss generalizing n with
  | nil => simp at h
  | cons xs xss ih =>
    rw [List.flatten_cons] at h
    by_cases hn : n < xs.length
    · rw [List.getElem?_append_left hn] at h
      exact ⟨0, n, xs, rfl, h, by simp⟩
    · rw [List.getElem?_append_right (Nat.le_of_not_lt hn)] at h
      obtain ⟨q, r, ys, hys, hx, hsub⟩ := ih h
      refine ⟨q + 1, r, ys, hys, hx, ?_⟩
      rw [List.take_succ_cons, List.flatten_cons, List.length_append]
      omega

/-- An element of one of the lists that are put one after the other, and its number. -/
theorem getElem?_flatten {xss : List (List α)} {q r : Nat} {xs : List α} {x : α}
    (hq : xss[q]? = some xs) (hr : xs[r]? = some x) :
    xss.flatten[(xss.take q).flatten.length + r]? = some x := by
  induction xss generalizing q with
  | nil => simp at hq
  | cons ys xss ih =>
    cases q with
    | zero =>
      cases hq
      rw [List.take_zero, List.flatten_nil, List.length_nil, Nat.zero_add, List.flatten_cons,
        List.getElem?_append_left (List.getElem?_eq_some_iff.mp hr).1]
      exact hr
    | succ q =>
      rw [List.take_succ_cons, List.flatten_cons, List.flatten_cons, List.length_append, Nat.add_assoc,
        List.getElem?_append_right (by omega), Nat.add_sub_cancel_left]
      exact ih hq

/-- A list that is changed by numbers, and the parts it was put together from. -/
theorem flatten_mapIdx_mapIdx (g : Nat → α → β) (xss : List (List α)) :
    (xss.mapIdx fun q xs => xs.mapIdx fun r x => g ((xss.take q).flatten.length + r) x).flatten
      = xss.flatten.mapIdx g := by
  induction xss generalizing g with
  | nil => rfl
  | cons xs xss ih =>
    rw [List.mapIdx_cons, List.flatten_cons, List.flatten_cons, List.mapIdx_append, ← ih]
    congr 1
    · -- nothing stands before the first part
      simp only [List.take_zero, List.flatten_nil, List.length_nil, Nat.zero_add]
    · congr 1
      apply List.ext_getElem?
      intro q
      simp only [List.getElem?_mapIdx, List.take_succ_cons, List.flatten_cons, List.length_append]
      congr 1
      funext ys
      apply List.ext_getElem?
      intro r
      simp only [List.getElem?_mapIdx]
      congr 2
      funext y
      congr 1
      omega

/-- The same for lists that come from the elements of another list. -/
theorem getElem?_flatMap {g : α → List β} {xs : List α} {k : Nat} {x : α} (hk : xs[k]? = some x)
    {n : Nat} (hn : n < (g x).length) :
    (xs.flatMap g)[((xs.take k).map fun x => (g x).length).sum + n]? = (g x)[n]? := by
  have hg : (xs.map g)[k]? = some (g x) := by rw [List.getElem?_map, hk]; rfl
  have hlength : ((xs.map g).take k).flatten.length = ((xs.take k).map fun x => (g x).length).sum := by
    rw [List.length_flatten, ← List.map_take, List.map_map]
    rfl
  rw [List.getElem?_eq_getElem hn, List.flatMap_def, ← hlength]
  exact getElem?_flatten hg (List.getElem?_eq_getElem hn)

end DisBackend
