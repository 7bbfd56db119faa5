import Mathlib.Data.List.Nodup
import DisBackend.Proofs.Outcome

/-!
# `Proofs.Lowering.Typing` — what the types of the values say

When the types of a function's values are found, every parameter has the type it was declared with and
every result the type that its instruction asks for; each value is defined once. The rounds over the
results that wait for their left operand only ever add to the list, so an equation that held when a type
was found holds at the end.

## Contents

* `Typing.define_ok`, `Typing.Covers` — what one instruction says about its result;
* `Settled`, `settle_ok` — the rounds;
* `Scans`, `scan_ok` — the pass over the instructions;
* `WellTyped`, `valueTypes_ok` — the types of a function.
-/

namespace DisBackend

open Ssa (Function Instr MathOp Ty ValueId)

namespace Typing

/-- The values of a typing. -/
def values (types : Typing) : List ValueId := types.map Prod.fst

theorem define_ok {types types' : Typing} {v : ValueId} {ty : Ty}
    (h : types.define v ty = .ok types') :
    types.lookup v = none ∧ types' = types ++ [(v, ty)] := by
  unfold define at h
  cases hv : types.lookup v with
  | some _ => rw [hv] at h; cases h
  | none => rw [hv] at h; cases h; exact ⟨rfl, rfl⟩

theorem lookup_eq_none_iff_not_mem {types : Typing} {v : ValueId} :
    types.lookup v = none ↔ v ∉ types.values := by
  rw [List.lookup_eq_none_iff]
  constructor
  · intro h hv
    obtain ⟨p, hp, rfl⟩ := List.mem_map.mp hv
    simpa using h p hp
  · intro h p hp
    have hne : v ≠ p.1 := fun he => h (he ▸ List.mem_map_of_mem hp)
    simpa using hne

/-- What was defined is found again. -/
theorem lookup_define {types : Typing} {v : ValueId} {ty : Ty} (h : types.lookup v = none) :
    (types ++ [(v, ty)]).lookup v = some ty := by
  rw [List.lookup_append, h]
  simp

theorem nodup_define {types : Typing} {v : ValueId} {ty : Ty} (h : types.lookup v = none)
    (hnodup : types.values.Nodup) : (values (types ++ [(v, ty)])).Nodup := by
  rw [values, List.map_append, List.map_cons, List.map_nil, List.nodup_append]
  refine ⟨hnodup, List.nodup_singleton _, ?_⟩
  intro a ha b hb hab
  rw [List.mem_singleton] at hb
  subst hb
  exact lookup_eq_none_iff_not_mem.mp h (hab ▸ ha)

/-- The result of `i` has the type that `i` asks for: that of the left operand for an operation, and one
that depends on nothing else for all others. -/
def Covers (c : Context) (types : Typing) (i : Instr) : Prop :=
  match i with
  | .math dst _ lhs _ => ∃ ty, types.lookup lhs = some ty ∧ types.lookup dst = some ty
  | i => ∃ r, resultType c i = .ok r ∧ ∀ dst ty, r = some (dst, ty) → types.lookup dst = some ty

theorem Covers.mono {c : Context} {types types' : Typing} {i : Instr} (h : types.Covers c i)
    (hle : types <+: types') : types'.Covers c i := by
  cases i with
  | math dst op lhs rhs =>
    obtain ⟨ty, hlhs, hdst⟩ := h
    exact ⟨ty, hle.lookup_eq_some hlhs, hle.lookup_eq_some hdst⟩
  | _ =>
    obtain ⟨r, hr, hlookup⟩ := h
    exact ⟨r, hr, fun dst ty he => hle.lookup_eq_some (hlookup dst ty he)⟩

end Typing

/-! ## Rounds -/

/-- `s` is what becomes of `types` and the results that wait in `pending` after a while: types are only
added, no value is lost or defined twice, and who no longer waits has the type of its left operand. -/
structure Settled (types : Typing) (pending : List Pending) (s : Scanned) : Prop where
  grows : types <+: s.types
  values : (types.values ++ pending.map Pending.dst).Perm
    (s.types.values ++ s.pending.map Pending.dst)
  nodup : types.values.Nodup → s.types.values.Nodup
  done : ∀ p ∈ pending, p ∈ s.pending ∨
    ∃ ty, s.types.lookup p.lhs = some ty ∧ s.types.lookup p.dst = some ty

theorem Settled.refl (types : Typing) (pending : List Pending) :
    Settled types pending ⟨types, pending⟩ :=
  ⟨List.prefix_rfl, .refl _, id, fun _ hp => .inl hp⟩

theorem Settled.trans {types : Typing} {pending : List Pending} {s t : Scanned}
    (h : Settled types pending s) (h' : Settled s.types s.pending t) : Settled types pending t where
  grows := h.grows.trans h'.grows
  values := h.values.trans h'.values
  nodup := h'.nodup ∘ h.nodup
  done := by
    intro p hp
    rcases h.done p hp with hwaits | ⟨ty, hlhs, hdst⟩
    · exact h'.done p hwaits
    · exact .inr ⟨ty, h'.grows.lookup_eq_some hlhs, h'.grows.lookup_eq_some hdst⟩

/-- What a round does with the first result that waits: it is done or waits on. -/
theorem settleRound_cons {types : Typing} {p : Pending} {rest : List Pending} {s : Scanned}
    (h : settleRound types (p :: rest) = .ok s) :
    (∃ ty, types.lookup p.lhs = some ty ∧ types.lookup p.dst = none ∧
      settleRound (types ++ [(p.dst, ty)]) rest = .ok s) ∨
    types.lookup p.lhs = none ∧ ∃ s', settleRound types rest = .ok s' ∧
      s = { s' with pending := p :: s'.pending } := by
  unfold settleRound at h
  cases hlhs : types.lookup p.lhs with
  | some ty =>
    simp only [hlhs, except_bind_ok_iff] at h
    obtain ⟨types', hdefine, hrest⟩ := h
    obtain ⟨hnew, rfl⟩ := Typing.define_ok hdefine
    exact .inl ⟨ty, rfl, hnew, hrest⟩
  | none =>
    simp only [hlhs, except_bind_ok_iff, except_pure_ok_iff] at h
    obtain ⟨s', hrest, rfl⟩ := h
    exact .inr ⟨rfl, s', hrest, rfl⟩

theorem settleRound_ok {types : Typing} {pending : List Pending} {s : Scanned}
    (h : settleRound types pending = .ok s) : Settled types pending s := by
  induction pending generalizing types s with
  | nil => cases h; exact .refl _ _
  | cons p rest ih =>
    rcases settleRound_cons h with ⟨ty, hlhs, hnew, hrest⟩ | ⟨-, s', hrest, rfl⟩
    · -- `p` is done: its type goes to the end of the list
      have hround := ih hrest
      refine ⟨(List.prefix_append _ _).trans hround.grows, ?_, ?_, ?_⟩
      · have hperm : (types.values ++ (p :: rest).map Pending.dst).Perm
            (Typing.values (types ++ [(p.dst, ty)]) ++ rest.map Pending.dst) := by
          simp [Typing.values]
        exact hperm.trans hround.values
      · exact fun hnodup => hround.nodup (Typing.nodup_define hnew hnodup)
      · intro q hq
        rcases List.mem_cons.mp hq with rfl | hq
        · have hmono := (List.prefix_append types [(q.dst, ty)]).trans hround.grows
          exact .inr ⟨ty, hmono.lookup_eq_some hlhs,
            hround.grows.lookup_eq_some (Typing.lookup_define hnew)⟩
        · exact hround.done q hq
    · -- `p` waits on
      have hround := ih hrest
      refine ⟨hround.grows, ?_, hround.nodup, ?_⟩
      · rw [List.map_cons, List.map_cons]
        exact List.perm_middle.trans ((hround.values.cons p.dst).trans List.perm_middle.symm)
      · intro q hq
        rcases List.mem_cons.mp hq with rfl | hq
        · exact .inl List.mem_cons_self
        · rcases hround.done q hq with hwaits | hdone
          · exact .inl (List.mem_cons_of_mem _ hwaits)
          · exact .inr hdone

theorem settle_ok {fuel : Nat} {types types' : Typing} {pending : List Pending}
    (h : settle fuel types pending = .ok types') : Settled types pending ⟨types', []⟩ := by
  induction fuel generalizing types pending with
  | zero =>
    cases pending with
    | nil => simp only [settle, Except.ok.injEq] at h; subst h; exact .refl _ _
    | cons p rest => simp [settle] at h
  | succ fuel ih =>
    cases pending with
    | nil => simp only [settle, Except.ok.injEq] at h; subst h; exact .refl _ _
    | cons p rest =>
      simp only [settle, except_bind_ok_iff] at h
      obtain ⟨s, hround, h⟩ := h
      by_cases hstuck : s.pending.length = rest.length + 1
      · rw [if_pos hstuck] at h; cases h
      · rw [if_neg hstuck] at h
        exact (settleRound_ok hround).trans (ih h)

/-! ## The pass over the instructions -/

/-- The result of `i` is typed, or it waits. -/
def Handled (c : Context) (s : Scanned) (i : Instr) : Prop :=
  s.types.Covers c i ∨ ∃ dst op lhs rhs, i = .math dst op lhs rhs ∧ ⟨dst, lhs⟩ ∈ s.pending

/-- `s'` is what becomes of `s` when `instrs` are passed over: types and waiting results are only added,
and every instruction passed is handled. -/
structure Scans (c : Context) (s : Scanned) (instrs : List Instr) (s' : Scanned) : Prop where
  grows : s.types <+: s'.types
  waits : ∀ p ∈ s.pending, p ∈ s'.pending
  values : (s.types.values ++ s.pending.map Pending.dst ++ instrs.filterMap Instr.destination?).Perm
    (s'.types.values ++ s'.pending.map Pending.dst)
  nodup : s.types.values.Nodup → s'.types.values.Nodup
  handled : ∀ i ∈ instrs, Handled c s' i

theorem Scans.nil (c : Context) (s : Scanned) : Scans c s [] s :=
  ⟨List.prefix_rfl, fun _ hp => hp, by simp, id, by simp⟩

theorem Scans.cons {c : Context} {s t u : Scanned} {i : Instr} {rest : List Instr}
    (h : Scans c s [i] t) (h' : Scans c t rest u) : Scans c s (i :: rest) u where
  grows := h.grows.trans h'.grows
  waits := fun p hp => h'.waits p (h.waits p hp)
  values := by
    have hsplit : (i :: rest).filterMap Instr.destination?
        = [i].filterMap Instr.destination? ++ rest.filterMap Instr.destination? := by
      rw [← List.filterMap_append, List.singleton_append]
    rw [hsplit, ← List.append_assoc]
    exact (h.values.append_right _).trans h'.values
  nodup := h'.nodup ∘ h.nodup
  handled := by
    intro j hj
    rcases List.mem_cons.mp hj with rfl | hj
    · rcases h.handled j List.mem_cons_self with hcovers | ⟨dst, op, lhs, rhs, rfl, hwaits⟩
      · exact .inl (hcovers.mono h'.grows)
      · exact .inr ⟨dst, op, lhs, rhs, rfl, h'.waits _ hwaits⟩
    · exact h'.handled j hj

/-- Passing over an instruction that defines its result. -/
theorem Scans.define {c : Context} {s : Scanned} {i : Instr} {v : ValueId} {ty : Ty} {types : Typing}
    (hdest : i.destination? = some v) (hdefine : s.types.define v ty = .ok types)
    (hcovers : types.Covers c i) : Scans c s [i] { s with types } := by
  obtain ⟨hnew, rfl⟩ := Typing.define_ok hdefine
  refine ⟨List.prefix_append _ _, fun _ hp => hp, ?_, Typing.nodup_define hnew, ?_⟩
  · simp only [List.filterMap_cons, hdest, List.filterMap_nil, Typing.values, List.map_append,
      List.map_cons, List.map_nil, List.append_assoc]
    exact List.Perm.append_left _ List.perm_append_comm
  · intro j hj
    rw [List.mem_singleton] at hj
    subst hj
    exact .inl hcovers

/-- Passing over an operation whose result waits. -/
theorem Scans.wait {c : Context} {s : Scanned} {dst lhs rhs : ValueId} {op : MathOp} :
    Scans c s [.math dst op lhs rhs] { s with pending := s.pending ++ [⟨dst, lhs⟩] } := by
  refine ⟨List.prefix_rfl, fun _ hp => List.mem_append_left _ hp, ?_, id, ?_⟩
  · simp [Instr.destination?]
  · intro j hj
    rw [List.mem_singleton] at hj
    subst hj
    exact .inr ⟨dst, op, lhs, rhs, rfl, List.mem_append_right _ List.mem_cons_self⟩

/-- An instruction with a result of its own type has that result as its destination. -/
theorem destination?_of_resultType {c : Context} {i : Instr} {r : Option (ValueId × Ty)}
    (hmath : ∀ dst op lhs rhs, i ≠ .math dst op lhs rhs) (h : resultType c i = .ok r) :
    i.destination? = r.map Prod.fst := by
  cases i with
  | math dst op lhs rhs => exact absurd rfl (hmath dst op lhs rhs)
  | loadGlobal dst name =>
    obtain ⟨ty, -, rfl⟩ := except_map_ok_iff.mp h
    rfl
  | call dst callee arguments =>
    cases dst with
    | none => cases h; rfl
    | some dst => obtain ⟨ty, -, rfl⟩ := except_map_ok_iff.mp h; rfl
  | callNative dst function arguments =>
    cases dst with
    | none => cases h; rfl
    | some dst => obtain ⟨ty, -, rfl⟩ := except_map_ok_iff.mp h; rfl
  | _ => cases h; rfl

/-- Instructions other than operations are covered by the type of their result. -/
theorem Typing.covers_of_resultType {c : Context} {types : Typing} {i : Instr}
    {r : Option (ValueId × Ty)} (hmath : ∀ dst op lhs rhs, i ≠ .math dst op lhs rhs)
    (h : resultType c i = .ok r) (hlookup : ∀ dst ty, r = some (dst, ty) → types.lookup dst = some ty) :
    types.Covers c i := by
  cases i with
  | math dst op lhs rhs => exact absurd rfl (hmath dst op lhs rhs)
  | _ => exact ⟨r, h, hlookup⟩

/-- The pass at an instruction that is no operation: its result is defined, if it has one. -/
theorem scanInstr_direct {c : Context} {s : Scanned} {i : Instr}
    (hmath : ∀ dst op lhs rhs, i ≠ .math dst op lhs rhs) :
    scanInstr c s i = resultType c i >>= fun r =>
      r.elim (.ok s) fun p => (s.types.define p.1 p.2).map fun types => { s with types } := by
  have hdefine (p : ValueId × Ty) : (do return { s with types := ← s.types.define p.1 p.2 }) =
      (s.types.define p.1 p.2).map fun types => { s with types } := by
    cases s.types.define p.1 p.2 <;> rfl
  cases i with
  | math dst op lhs rhs => exact absurd rfl (hmath dst op lhs rhs)
  | _ =>
    refine bind_congr fun r => ?_
    cases r with
    | none => rfl
    | some p => exact hdefine p

theorem scanInstr_other {c : Context} {s s' : Scanned} {i : Instr}
    (hmath : ∀ dst op lhs rhs, i ≠ .math dst op lhs rhs) (h : scanInstr c s i = .ok s') :
    Scans c s [i] s' := by
  rw [scanInstr_direct hmath] at h
  obtain ⟨r, hr, h⟩ := except_bind_ok_iff.mp h
  have hdest := destination?_of_resultType hmath hr
  cases r with
  | none =>
    cases h
    refine ⟨List.prefix_rfl, fun _ hp => hp, ?_, id, ?_⟩
    · simp [hdest]
    · intro j hj
      rw [List.mem_singleton] at hj
      subst hj
      exact .inl (Typing.covers_of_resultType hmath hr (by simp))
  | some p =>
    obtain ⟨types, hdefine, rfl⟩ := except_map_ok_iff.mp h
    obtain ⟨hnew, htypes⟩ := Typing.define_ok hdefine
    refine Scans.define hdest hdefine (Typing.covers_of_resultType hmath hr ?_)
    rintro dst' ty' he
    cases he
    rw [htypes]
    exact Typing.lookup_define hnew

theorem scanInstr_math {c : Context} {s s' : Scanned} {dst lhs rhs : ValueId} {op : MathOp}
    (h : scanInstr c s (.math dst op lhs rhs) = .ok s') :
    Scans c s [.math dst op lhs rhs] s' := by
  simp only [scanInstr] at h
  cases hlhs : s.types.lookup lhs with
  | none => simp only [hlhs, Except.ok.injEq] at h; subst h; exact .wait
  | some ty =>
    simp only [hlhs] at h
    by_cases hadd : op = .add
    · simp only [hadd, if_true, Except.ok.injEq] at h
      subst h; rw [hadd]; exact .wait
    · simp only [if_neg hadd] at h
      obtain ⟨types, hdefine, rfl⟩ := except_map_ok_iff.mp h
      obtain ⟨hnew, htypes⟩ := Typing.define_ok hdefine
      refine Scans.define rfl hdefine ⟨ty, ?_, ?_⟩
      · rw [htypes]; exact (List.prefix_append _ _).lookup_eq_some hlhs
      · rw [htypes]; exact Typing.lookup_define hnew

theorem scanInstr_ok {c : Context} {s s' : Scanned} {i : Instr} (h : scanInstr c s i = .ok s') :
    Scans c s [i] s' := by
  cases i with
  | math dst op lhs rhs => exact scanInstr_math h
  | _ => exact scanInstr_other (by simp) h

theorem scan_ok {c : Context} {s s' : Scanned} {instrs : List Instr}
    (h : scan c s instrs = .ok s') : Scans c s instrs s' := by
  induction instrs generalizing s with
  | nil => cases h; exact .nil c _
  | cons i rest ih =>
    obtain ⟨t, hi, hrest⟩ := except_bind_ok_iff.mp h
    exact Scans.cons (scanInstr_ok hi) (ih hrest)

/-! ## The types of a function -/

/-- What the types of a function's values satisfy: the parameters come first, the values are the
parameters and the results, each once, and every result has the type its instruction asks for. -/
structure WellTyped (c : Context) (f : Function) (types : Typing) : Prop where
  parameters : f.parameterValues <+: types
  nodup : types.values.Nodup
  values : types.values.Perm
    (f.parameterValues.map Prod.fst ++ f.instructions.filterMap Instr.destination?)
  covers : ∀ i ∈ f.instructions, types.Covers c i

theorem getElem?_parameterValues (f : Function) (k : Nat) :
    f.parameterValues[k]? = f.parameters[k]?.map fun ty => (⟨k⟩, ty) := by
  rw [Function.parameterValues, List.getElem?_mapIdx]

theorem nodup_parameterTypes (f : Function) : (parameterTypes f).values.Nodup := by
  rw [List.nodup_iff_injective_getElem]
  intro a b hab
  apply Fin.ext
  simpa [Typing.values, parameterTypes, Function.parameterValues] using hab

/-- **Type inference keeps its promises.** -/
theorem valueTypes_ok {c : Context} {f : Function} {types : Typing}
    (h : valueTypes c f = .ok types) : WellTyped c f types := by
  obtain ⟨s, hscan, hsettle⟩ := except_bind_ok_iff.mp h
  have hscans := scan_ok hscan
  have hsettled := settle_ok hsettle
  refine ⟨hscans.grows.trans hsettled.grows, ?_, ?_, ?_⟩
  · exact hsettled.nodup (hscans.nodup (nodup_parameterTypes f))
  · have hperm := hscans.values.trans hsettled.values
    simp only [List.map_nil, List.append_nil] at hperm
    exact hperm.symm
  · intro i hi
    rcases hscans.handled i hi with hcovers | ⟨dst, op, lhs, rhs, rfl, hwaits⟩
    · exact hcovers.mono hsettled.grows
    · rcases hsettled.done _ hwaits with hnever | ⟨ty, hlhs, hdst⟩
      · exact absurd hnever List.not_mem_nil
      · exact ⟨ty, hlhs, hdst⟩

namespace WellTyped

variable {c : Context} {f : Function} {types : Typing}

/-- Results are defined once, and are no parameters. -/
theorem nodup_definitions (h : WellTyped c f types) :
    (f.parameterValues.map Prod.fst ++ f.instructions.filterMap Instr.destination?).Nodup :=
  h.values.nodup_iff.mp h.nodup

/-- The results of the instructions of a block differ. -/
theorem nodup_destinations (h : WellTyped c f types) {b : Ssa.BlockId} {block : Ssa.Block}
    (hb : f.block? b = some block) : (block.instructions.filterMap Instr.destination?).Nodup := by
  have hall := (List.nodup_append.mp h.nodup_definitions).2.1
  refine hall.sublist (List.Sublist.filterMap _ ?_)
  rw [Function.instructions, List.flatMap_def]
  exact List.sublist_flatten_of_mem (List.mem_map.mpr ⟨block, List.mem_of_getElem? hb, rfl⟩)

/-- Two instructions with the same result are the same. -/
theorem destination_unique (h : WellTyped c f types) {i j : Instr} {v : ValueId}
    (hi : i ∈ f.instructions) (hj : j ∈ f.instructions) (hiv : i.destination? = some v)
    (hjv : j.destination? = some v) : i = j := by
  have hnodup := (List.nodup_append.mp h.nodup_definitions).2.1
  generalize f.instructions = instrs at hi hj hnodup
  induction instrs with
  | nil => exact absurd hi List.not_mem_nil
  | cons k rest ih =>
    have hmem {m : Instr} (hm : m ∈ rest) (hmv : m.destination? = some v) :
        v ∈ rest.filterMap Instr.destination? := List.mem_filterMap.mpr ⟨m, hm, hmv⟩
    rcases List.mem_cons.mp hi with rfl | hir <;> rcases List.mem_cons.mp hj with rfl | hjr
    · rfl
    · rw [List.filterMap_cons, hiv, List.nodup_cons] at hnodup
      exact absurd (hmem hjr hjv) hnodup.1
    · rw [List.filterMap_cons, hjv, List.nodup_cons] at hnodup
      exact absurd (hmem hir hiv) hnodup.1
    · refine ih hir hjr (hnodup.sublist ?_)
      exact (List.sublist_cons_self _ _).filterMap _

/-- No instruction defines a parameter. -/
theorem destination_not_parameter (h : WellTyped c f types) {i : Instr} {v : ValueId}
    (hi : i ∈ f.instructions) (hiv : i.destination? = some v) : f.parameters.length ≤ v.index := by
  by_contra hlt
  have hparam : v ∈ f.parameterValues.map Prod.fst := by
    rw [List.mem_iff_getElem?]
    refine ⟨v.index, ?_⟩
    rw [List.getElem?_map, getElem?_parameterValues,
      List.getElem?_eq_getElem (Nat.lt_of_not_le hlt)]
    rfl
  have hresult : v ∈ f.instructions.filterMap Instr.destination? :=
    List.mem_filterMap.mpr ⟨i, hi, hiv⟩
  exact (List.nodup_append.mp h.nodup_definitions).2.2 v hparam v hresult rfl

end WellTyped

end DisBackend
