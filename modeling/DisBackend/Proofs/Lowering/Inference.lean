import DisBackend.Proofs.Lowering.Typing

/-!
# `Proofs.Lowering.Inference` — which functions can be typed

The result of an operation has the type of its left operand, which may itself be the result of an operation
that is written further down, and so on. The rounds follow all these chains at once. They end: a round that
goes on leaves fewer results waiting. And they find every type that is determined: when a round finds
nothing, no chain that starts at a result that still waits ever ends.

## Contents

* `SettlesTo`, `settlesTo_settle`, `SettlesTo.unique` — the rounds, as long as they last;
* `settleRound_total`, `settleRound_closed`, `settleRound_stuck` — one round;
* `Instr.Yields`, `Instr.Resolves`, `scanInstr_cases`, `scan_total`, `scan_closed` — the pass over the
  instructions;
* `Function.Grounded` — chains that end;
* `Progress`, `SettlesTo.outcome` — what the rounds preserve, and how they end;
* `valueTypes_outcome`, `valueTypes_exact` — the types of a function.
-/

namespace DisBackend

open Ssa (Function Instr MathOp Ty ValueId)

namespace Typing

theorem mem_values_of_lookup {types : Typing} {v : ValueId} {ty : Ty} (h : types.lookup v = some ty) :
    v ∈ types.values := by
  by_contra hnew
  rw [lookup_eq_none_iff_not_mem.mpr hnew] at h
  cases h

theorem define_of_not_mem {types : Typing} {v : ValueId} (h : v ∉ types.values) (ty : Ty) :
    types.define v ty = .ok (types ++ [(v, ty)]) := by
  unfold define
  rw [lookup_eq_none_iff_not_mem.mpr h]

theorem values_append (types : Typing) (v : ValueId) (ty : Ty) :
    values (types ++ [(v, ty)]) = types.values ++ [v] := by
  simp [values]

theorem mem_values_of_prefix {types types' : Typing} (h : types <+: types') {v : ValueId}
    (hv : v ∈ types.values) : v ∈ types'.values :=
  (h.map Prod.fst).subset hv

end Typing

/-! ## One round -/

section Round

variable {types : Typing} {pending : List Pending} {s : Scanned}

/-- Who waits after a round has waited before. -/
theorem settleRound_pending (h : settleRound types pending = .ok s) : List.Sublist s.pending pending := by
  induction pending generalizing types s with
  | nil =>
    cases h
    exact .slnil
  | cons p rest ih =>
    rcases settleRound_cons h with ⟨ty, -, -, hrest⟩ | ⟨-, s', hrest, rfl⟩
    · exact (ih hrest).cons p
    · exact (ih hrest).cons_cons p

/-- What is found lies in every set that contains what was known and, with the left operand of a result that
waits, the result. -/
theorem settleRound_closed {P : ValueId → Prop} (h : settleRound types pending = .ok s)
    (hknown : ∀ v ∈ types.values, P v) (hstep : ∀ p ∈ pending, P p.lhs → P p.dst) :
    ∀ v ∈ s.types.values, P v := by
  induction pending generalizing types s with
  | nil =>
    cases h
    exact hknown
  | cons p rest ih =>
    have hrestStep : ∀ q ∈ rest, P q.lhs → P q.dst := fun q hq => hstep q (List.mem_cons_of_mem _ hq)
    rcases settleRound_cons h with ⟨ty, hlhs, -, hrest⟩ | ⟨-, s', hrest, rfl⟩
    · refine ih hrest ?_ hrestStep
      intro v hv
      rw [Typing.values_append] at hv
      rcases List.mem_append.mp hv with hold | hnew
      · exact hknown v hold
      · obtain rfl := List.mem_singleton.mp hnew
        exact hstep p List.mem_cons_self (hknown _ (Typing.mem_values_of_lookup hlhs))
    · exact ih (s := s') hrest hknown hrestStep

/-- **A round that finds nothing:** no left operand has a type, and all wait on. -/
theorem settleRound_stuck (h : settleRound types pending = .ok s)
    (hlength : s.pending.length = pending.length) :
    s.pending = pending ∧ ∀ p ∈ pending, p.lhs ∉ types.values := by
  refine ⟨(settleRound_pending h).eq_of_length hlength, ?_⟩
  induction pending generalizing types s with
  | nil => simp
  | cons p rest ih =>
    rcases settleRound_cons h with ⟨ty, -, -, hrest⟩ | ⟨hlhs, s', hrest, rfl⟩
    · -- one less would wait
      have hle := (settleRound_pending hrest).length_le
      rw [hlength, List.length_cons] at hle
      omega
    · intro q hq
      rcases List.mem_cons.mp hq with rfl | hq
      · exact Typing.lookup_eq_none_iff_not_mem.mp hlhs
      · exact ih hrest (by simpa using hlength) q hq

/-- **A round ends well** if no value is defined twice. -/
theorem settleRound_total (h : (types.values ++ pending.map Pending.dst).Nodup) :
    ∃ s, settleRound types pending = .ok s := by
  induction pending generalizing types with
  | nil => exact ⟨_, rfl⟩
  | cons p rest ih =>
    have hnew : p.dst ∉ types.values := by
      intro hmem
      exact (List.nodup_append.mp h).2.2 _ hmem _ List.mem_cons_self rfl
    unfold settleRound
    cases types.lookup p.lhs with
    | some ty =>
      simp only [Typing.define_of_not_mem hnew]
      apply ih
      simpa [Typing.values_append] using h
    | none =>
      have hsub : (types.values ++ rest.map Pending.dst).Nodup :=
        h.sublist ((List.sublist_cons_self _ _).append_left _)
      obtain ⟨s, hs⟩ := ih hsub
      exact ⟨{ s with pending := p :: s.pending }, by simp [hs]⟩

end Round

/-! ## Rounds, as long as they last -/

/-- The rounds that start from `types` and `pending` end with `r`: with all types when nothing waits, or with
the first result that waits when a round finds nothing. -/
inductive SettlesTo : Typing → List Pending → Except LowerError Typing → Prop where
  | done (types : Typing) : SettlesTo types [] (.ok types)
  | refused {types : Typing} {pending : List Pending} {e : LowerError}
    (round : settleRound types pending = .error e) : SettlesTo types pending (.error e)
  | stuck {types : Typing} {pending rest : List Pending} {s : Scanned} {p : Pending}
    (round : settleRound types pending = .ok s) (same : s.pending.length = pending.length)
    (first : s.pending = p :: rest) : SettlesTo types pending (.error (.undefinedValue p.lhs))
  | again {types : Typing} {pending : List Pending} {s : Scanned} {r : Except LowerError Typing}
    (round : settleRound types pending = .ok s) (fewer : s.pending.length < pending.length)
    (rest : SettlesTo s.types s.pending r) : SettlesTo types pending r

/-- **The rounds end,** after at most as many rounds as results wait. -/
theorem settlesTo_settle {fuel : Nat} {types : Typing} {pending : List Pending}
    (h : pending.length ≤ fuel) : SettlesTo types pending (settle fuel types pending) := by
  induction fuel generalizing types pending with
  | zero =>
    obtain rfl := List.eq_nil_of_length_eq_zero (Nat.le_zero.mp h)
    exact .done types
  | succ fuel ih =>
    cases pending with
    | nil => exact .done types
    | cons p rest =>
      unfold settle
      cases hround : settleRound types (p :: rest) with
      | error e => exact .refused hround
      | ok s =>
        show SettlesTo types (p :: rest)
          (if s.pending.length = rest.length + 1 then _ else settle fuel s.types s.pending)
        by_cases hsame : s.pending.length = rest.length + 1
        · rw [if_pos hsame]
          exact .stuck hround hsame (settleRound_stuck hround hsame).1
        · rw [if_neg hsame]
          have hle := (settleRound_pending hround).length_le
          rw [List.length_cons] at hle h
          exact .again hround (by rw [List.length_cons]; omega) (ih (by omega))

/-- There is one way for the rounds to end. -/
theorem SettlesTo.unique {types : Typing} {pending : List Pending} {r r' : Except LowerError Typing}
    (h : SettlesTo types pending r) (h' : SettlesTo types pending r') : r = r' := by
  induction h with
  | done types =>
    cases h' with
    | done => rfl
    | refused round => cases round
    | stuck round same first =>
      cases round
      cases first
    | again round fewer => cases round; exact absurd fewer (Nat.lt_irrefl _)
  | refused round =>
    cases h' with
    | done => cases round
    | refused round' => rw [round] at round'; cases round'; rfl
    | stuck round' => rw [round] at round'; cases round'
    | again round' => rw [round] at round'; cases round'
  | stuck round same first =>
    cases h' with
    | done =>
      cases round
      cases first
    | refused round' => rw [round] at round'; cases round'
    | stuck round' same' first' =>
      rw [round] at round'
      cases round'
      rw [first] at first'
      cases first'
      rfl
    | again round' fewer =>
      rw [round] at round'
      cases round'
      omega
  | again round fewer rest ih =>
    cases h' with
    | done => cases round; exact absurd fewer (Nat.lt_irrefl _)
    | refused round' => rw [round] at round'; cases round'
    | stuck round' same =>
      rw [round] at round'
      cases round'
      omega
    | again round' fewer' rest' =>
      rw [round] at round'
      cases round'
      exact ih rest'

/-! ## The pass over the instructions -/

namespace Ssa.Instr

/-- The result of the instruction is of type `ty`, by its definition. An operation takes the type of its left
operand, and all others depend on no value. -/
inductive Yields (c : Context) (types : Typing) : Instr → Ty → Prop where
  | const (dst : ValueId) (value : Ssa.Constant) : Yields c types (.const dst value) value.ty
  | math {dst lhs rhs : ValueId} {op : MathOp} {ty : Ty} (operand : types.lookup lhs = some ty) :
    Yields c types (.math dst op lhs rhs) ty
  | compare (dst lhs rhs : ValueId) (op : Ssa.Comparison) : Yields c types (.compare dst op lhs rhs) .bool
  | phi (dst : ValueId) (ty : Ty) (incoming : List Ssa.PhiEdge) : Yields c types (.phi dst ty incoming) ty
  | loadGlobal {dst : ValueId} {name : String} {slot : GlobalSlot} (found : c.global? name = some slot) :
    Yields c types (.loadGlobal dst name) slot.ty
  | new (dst : ValueId) (fields : List Ty) : Yields c types (.new dst fields) .object
  | loadField (dst object : ValueId) (ty : Ty) (field : Nat) :
    Yields c types (.loadField dst ty object field) ty
  | call {dst : ValueId} {callee : String} {arguments : List ValueId} {target : Function} {ty : Ty}
    (found : c.program.function? callee = some target) (result : target.result = some ty) :
    Yields c types (.call (some dst) callee arguments) ty
  | callNative {dst : ValueId} {name : String} {arguments : List ValueId} {native : SysFunction} {ty : Ty}
    (found : SysFunction.lookup? name = some native) (result : native.result? = some ty) :
    Yields c types (.callNative (some dst) name arguments) ty

/-- What the instruction takes its result from exists: the global, or the function, which has a result. -/
def Resolves (c : Context) : Instr → Prop
  | .loadGlobal _ name => ∃ slot, c.global? name = some slot
  | .call (some _) callee _ => ∃ target ty, c.program.function? callee = some target ∧ target.result = some ty
  | .callNative (some _) name _ =>
    ∃ native ty, SysFunction.lookup? name = some native ∧ native.result? = some ty
  | _ => True

/-- The instruction is no operation. -/
def IsDirect (i : Instr) : Prop := ∀ dst op lhs rhs, i ≠ .math dst op lhs rhs

end Ssa.Instr

section Pass

variable {c : Context}

theorem callType_ok_iff {callee : String} {ty : Ty} : callType c callee = .ok ty ↔
    ∃ target, c.program.function? callee = some target ∧ target.result = some ty := by
  unfold callType
  cases c.program.function? callee with
  | none => simp
  | some target => cases hresult : target.result <;> simp [hresult]

theorem nativeCallType_ok_iff {name : String} {ty : Ty} : nativeCallType name = .ok ty ↔
    ∃ native, SysFunction.lookup? name = some native ∧ native.result? = some ty := by
  unfold nativeCallType
  cases SysFunction.lookup? name with
  | none => simp
  | some native => cases hresult : native.result? <;> simp [hresult]

theorem globalType_ok_iff {name : String} {ty : Ty} : globalType c name = .ok ty ↔
    ∃ slot, c.global? name = some slot ∧ slot.ty = ty := by
  unfold globalType
  cases c.global? name <;> simp

/-- **The types that are found are those of the definitions.** -/
theorem Typing.Covers.yields {types : Typing} {i : Instr} {dst : ValueId} (h : types.Covers c i)
    (hdst : i.destination? = some dst) : ∃ ty, types.lookup dst = some ty ∧ i.Yields c types ty := by
  cases i with
  | math d op lhs rhs =>
    cases hdst
    obtain ⟨ty, hlhs, hlookup⟩ := h
    exact ⟨ty, hlookup, .math hlhs⟩
  | const d value =>
    cases hdst
    obtain ⟨_, ⟨⟩, hlookup⟩ := h
    exact ⟨_, hlookup _ _ rfl, .const dst value⟩
  | compare d op lhs rhs =>
    cases hdst
    obtain ⟨_, ⟨⟩, hlookup⟩ := h
    exact ⟨_, hlookup _ _ rfl, .compare dst lhs rhs op⟩
  | phi d ty incoming =>
    cases hdst
    obtain ⟨_, ⟨⟩, hlookup⟩ := h
    exact ⟨_, hlookup _ _ rfl, .phi dst ty incoming⟩
  | new d fields =>
    cases hdst
    obtain ⟨_, ⟨⟩, hlookup⟩ := h
    exact ⟨_, hlookup _ _ rfl, .new dst fields⟩
  | loadField d ty object field =>
    cases hdst
    obtain ⟨_, ⟨⟩, hlookup⟩ := h
    exact ⟨_, hlookup _ _ rfl, .loadField dst object ty field⟩
  | loadGlobal d name =>
    cases hdst
    obtain ⟨_, hresult, hlookup⟩ := h
    obtain ⟨_, hty, rfl⟩ := except_map_ok_iff.mp hresult
    obtain ⟨slot, hslot, rfl⟩ := globalType_ok_iff.mp hty
    exact ⟨_, hlookup _ _ rfl, .loadGlobal hslot⟩
  | call d callee arguments =>
    obtain rfl : d = some dst := hdst
    obtain ⟨_, hresult, hlookup⟩ := h
    obtain ⟨ty, hty, rfl⟩ := except_map_ok_iff.mp hresult
    obtain ⟨target, hfound, htarget⟩ := callType_ok_iff.mp hty
    exact ⟨ty, hlookup _ _ rfl, .call hfound htarget⟩
  | callNative d name arguments =>
    obtain rfl : d = some dst := hdst
    obtain ⟨_, hresult, hlookup⟩ := h
    obtain ⟨ty, hty, rfl⟩ := except_map_ok_iff.mp hresult
    obtain ⟨native, hfound, hnative⟩ := nativeCallType_ok_iff.mp hty
    exact ⟨ty, hlookup _ _ rfl, .callNative hfound hnative⟩
  | storeGlobal | storeField | jump | branch | ret => cases hdst

theorem resultType_of_resolves {i : Instr} (h : i.Resolves c) : ∃ r, resultType c i = .ok r := by
  cases i with
  | loadGlobal dst name =>
    obtain ⟨slot, hslot⟩ := h
    exact ⟨_, except_map_ok_iff.mpr ⟨_, globalType_ok_iff.mpr ⟨slot, hslot, rfl⟩, rfl⟩⟩
  | call dst callee arguments =>
    cases dst with
    | none => exact ⟨_, rfl⟩
    | some dst =>
      obtain ⟨target, ty, hfound, hresult⟩ := h
      exact ⟨_, except_map_ok_iff.mpr ⟨ty, callType_ok_iff.mpr ⟨target, hfound, hresult⟩, rfl⟩⟩
  | callNative dst name arguments =>
    cases dst with
    | none => exact ⟨_, rfl⟩
    | some dst =>
      obtain ⟨native, ty, hfound, hresult⟩ := h
      exact ⟨_, except_map_ok_iff.mpr ⟨ty, nativeCallType_ok_iff.mpr ⟨native, hfound, hresult⟩, rfl⟩⟩
  | _ => exact ⟨_, rfl⟩

/-- What the pass does at one instruction: an operation waits or takes the type of its left operand, and any
other instruction defines its result, if it has one. -/
theorem scanInstr_cases {s s' : Scanned} {i : Instr} (h : scanInstr c s i = .ok s') :
    (∃ dst op lhs rhs, i = .math dst op lhs rhs ∧ s' = { s with pending := s.pending ++ [⟨dst, lhs⟩] }) ∨
    (∃ dst op lhs rhs ty, i = .math dst op lhs rhs ∧ s.types.lookup lhs = some ty ∧
      s' = { s with types := s.types ++ [(dst, ty)] }) ∨
    i.IsDirect ∧ (s' = s ∨
      ∃ dst ty, i.destination? = some dst ∧ s' = { s with types := s.types ++ [(dst, ty)] }) := by
  by_cases hdirect : i.IsDirect
  · rw [scanInstr_direct hdirect] at h
    obtain ⟨r, hr, h⟩ := except_bind_ok_iff.mp h
    have hdest := destination?_of_resultType hdirect hr
    refine .inr (.inr ⟨hdirect, ?_⟩)
    cases r with
    | none =>
      cases h
      exact .inl rfl
    | some p =>
      obtain ⟨types, hdefine, rfl⟩ := except_map_ok_iff.mp h
      obtain ⟨-, rfl⟩ := Typing.define_ok hdefine
      exact .inr ⟨p.1, p.2, hdest, rfl⟩
  · simp only [Instr.IsDirect, not_forall, not_not] at hdirect
    obtain ⟨dst, op, lhs, rhs, rfl⟩ := hdirect
    unfold scanInstr at h
    cases hlhs : s.types.lookup lhs with
    | none =>
      simp only [hlhs, Except.ok.injEq] at h
      exact .inl ⟨dst, op, lhs, rhs, rfl, h.symm⟩
    | some ty =>
      simp only [hlhs] at h
      by_cases hadd : op = .add
      · simp only [if_pos hadd, Except.ok.injEq] at h
        exact .inl ⟨dst, op, lhs, rhs, rfl, h.symm⟩
      · simp only [if_neg hadd] at h
        obtain ⟨types, hdefine, rfl⟩ := except_map_ok_iff.mp h
        obtain ⟨-, rfl⟩ := Typing.define_ok hdefine
        exact .inr (.inl ⟨dst, op, lhs, rhs, ty, rfl, hlhs, rfl⟩)

/-- What is found lies in every set that contains what was known, the results that depend on no value, and
with the left operand of an operation its result. -/
theorem scan_closed {P : ValueId → Prop} {s s' : Scanned} {instrs : List Instr}
    (h : scan c s instrs = .ok s') (hknown : ∀ v ∈ s.types.values, P v)
    (hdirect : ∀ i ∈ instrs, i.IsDirect → ∀ dst, i.destination? = some dst → P dst)
    (hmath : ∀ dst op lhs rhs, .math dst op lhs rhs ∈ instrs → P lhs → P dst) :
    ∀ v ∈ s'.types.values, P v := by
  induction instrs generalizing s with
  | nil =>
    cases h
    exact hknown
  | cons i rest ih =>
    obtain ⟨t, hi, hrest⟩ := except_bind_ok_iff.mp h
    refine ih hrest ?_ (fun j hj => hdirect j (List.mem_cons_of_mem _ hj))
      (fun dst op lhs rhs hj => hmath dst op lhs rhs (List.mem_cons_of_mem _ hj))
    have hdefined (dst : ValueId) (ty : Ty) (hdst : P dst) :
        ∀ v ∈ Typing.values (s.types ++ [(dst, ty)]), P v := by
      intro v hv
      rw [Typing.values_append] at hv
      rcases List.mem_append.mp hv with hold | hnew
      · exact hknown v hold
      · exact List.mem_singleton.mp hnew ▸ hdst
    rcases scanInstr_cases hi with ⟨dst, op, lhs, rhs, rfl, rfl⟩ | ⟨dst, op, lhs, rhs, ty, rfl, hlhs, rfl⟩ |
      ⟨hother, rfl | ⟨dst, ty, hdst, rfl⟩⟩
    · exact hknown
    · have hoperand := hknown lhs (Typing.mem_values_of_lookup hlhs)
      exact hdefined dst ty (hmath dst op lhs rhs List.mem_cons_self hoperand)
    · exact hknown
    · exact hdefined dst ty (hdirect i List.mem_cons_self hother dst hdst)

/-- Who waits after the pass is the result of an operation that was passed. -/
theorem scan_pending {s s' : Scanned} {instrs : List Instr} (h : scan c s instrs = .ok s') :
    ∀ p ∈ s'.pending, p ∈ s.pending ∨ ∃ op rhs, .math p.dst op p.lhs rhs ∈ instrs := by
  induction instrs generalizing s with
  | nil =>
    cases h
    exact fun p hp => .inl hp
  | cons i rest ih =>
    obtain ⟨t, hi, hrest⟩ := except_bind_ok_iff.mp h
    intro p hp
    rcases ih hrest p hp with hwaits | ⟨op, rhs, hmem⟩
    · rcases scanInstr_cases hi with ⟨dst, op, lhs, rhs, rfl, rfl⟩ | ⟨_, _, _, _, _, rfl, -, rfl⟩ |
        ⟨-, rfl | ⟨_, _, -, rfl⟩⟩
      · rcases List.mem_append.mp hwaits with hold | hnew
        · exact .inl hold
        · obtain rfl := List.mem_singleton.mp hnew
          exact .inr ⟨op, rhs, List.mem_cons_self⟩
      · exact .inl hwaits
      · exact .inl hwaits
      · exact .inl hwaits
    · exact .inr ⟨op, rhs, List.mem_cons_of_mem _ hmem⟩

theorem scanInstr_total {s : Scanned} {i : Instr} (hresolves : i.Resolves c)
    (hnew : ∀ dst, i.destination? = some dst → dst ∉ s.types.values) : ∃ s', scanInstr c s i = .ok s' := by
  by_cases hdirect : i.IsDirect
  · obtain ⟨r, hr⟩ := resultType_of_resolves hresolves
    have hdest := destination?_of_resultType hdirect hr
    rw [scanInstr_direct hdirect, hr]
    cases r with
    | none => exact ⟨s, rfl⟩
    | some p => exact ⟨_, except_map_ok_iff.mpr ⟨_, Typing.define_of_not_mem (hnew p.1 hdest) p.2, rfl⟩⟩
  · simp only [Instr.IsDirect, not_forall, not_not] at hdirect
    obtain ⟨dst, op, lhs, rhs, rfl⟩ := hdirect
    unfold scanInstr
    cases hlhs : s.types.lookup lhs with
    | none =>
      simp only [hlhs]
      exact ⟨_, rfl⟩
    | some ty =>
      simp only [hlhs]
      by_cases hadd : op = .add
      · exact ⟨_, if_pos hadd⟩
      · rw [if_neg hadd]
        exact ⟨_, except_map_ok_iff.mpr ⟨_, Typing.define_of_not_mem (hnew dst rfl) ty, rfl⟩⟩

/-- If no value is defined twice, what comes first defines a new one. -/
theorem destination_not_mem {s : Scanned} {i : Instr} {rest : List Instr}
    (hnodup : (s.types.values ++ s.pending.map Pending.dst
      ++ (i :: rest).filterMap Instr.destination?).Nodup) :
    ∀ dst, i.destination? = some dst → dst ∉ s.types.values := by
  intro dst hdst hmem
  refine (List.nodup_append.mp hnodup).2.2 dst (List.mem_append_left _ hmem) dst ?_ rfl
  exact List.mem_filterMap.mpr ⟨i, List.mem_cons_self, hdst⟩

/-- What an instruction defines or puts off moves from the results to come to the values or those who
wait. -/
theorem nodup_of_scanInstr {s t : Scanned} {i : Instr} {rest : List Instr} (h : scanInstr c s i = .ok t)
    (hnodup : (s.types.values ++ s.pending.map Pending.dst
      ++ (i :: rest).filterMap Instr.destination?).Nodup) :
    (t.types.values ++ t.pending.map Pending.dst ++ rest.filterMap Instr.destination?).Nodup := by
  have hvalues := (scanInstr_ok h).values
  have hsplit : (i :: rest).filterMap Instr.destination?
      = [i].filterMap Instr.destination? ++ rest.filterMap Instr.destination? := by
    rw [← List.filterMap_append, List.singleton_append]
  rw [hsplit, ← List.append_assoc] at hnodup
  exact (hvalues.append_right _).nodup_iff.mp hnodup

/-- **The pass ends well** if everything that results are taken from exists and no value is defined twice. -/
theorem scan_total {s : Scanned} {instrs : List Instr} (hresolves : ∀ i ∈ instrs, i.Resolves c)
    (hnodup : (s.types.values ++ s.pending.map Pending.dst
      ++ instrs.filterMap Instr.destination?).Nodup) : ∃ s', scan c s instrs = .ok s' := by
  induction instrs generalizing s with
  | nil => exact ⟨s, rfl⟩
  | cons i rest ih =>
    obtain ⟨t, hi⟩ := scanInstr_total (hresolves i List.mem_cons_self) (destination_not_mem hnodup)
    obtain ⟨s', hrest⟩ := ih (fun j hj => hresolves j (List.mem_cons_of_mem _ hj))
      (nodup_of_scanInstr hi hnodup)
    exact ⟨s', except_bind_ok_iff.mpr ⟨t, hi, hrest⟩⟩

end Pass

/-! ## Chains of left operands -/

namespace Ssa.Function

/-- Following left operands from the value on reaches a parameter or the result of an instruction that is no
operation. -/
inductive Grounded (f : Function) : ValueId → Prop where
  | parameter {v : ValueId} {ty : Ty} (known : (v, ty) ∈ f.parameterValues) : Grounded f v
  | direct {v : ValueId} {i : Instr} (written : i ∈ f.instructions) (direct : i.IsDirect)
    (result : i.destination? = some v) : Grounded f v
  | math {v lhs rhs : ValueId} {op : MathOp} (written : .math v op lhs rhs ∈ f.instructions)
    (operand : Grounded f lhs) : Grounded f v

/-- All chains of left operands end. -/
def AllGrounded (f : Function) : Prop :=
  ∀ dst op lhs rhs, .math dst op lhs rhs ∈ f.instructions → f.Grounded dst

end Ssa.Function

/-- What holds of the types that were found and the results that wait, from the pass over the instructions on
to the last round. -/
structure Progress (f : Function) (types : Typing) (pending : List Pending) : Prop where
  nodup : (types.values ++ pending.map Pending.dst).Nodup
  /-- A type is found only at the end of a chain. -/
  grounded : ∀ v ∈ types.values, f.Grounded v
  parameters : ∀ v ty, (v, ty) ∈ f.parameterValues → v ∈ types.values
  direct : ∀ i ∈ f.instructions, i.IsDirect → ∀ v, i.destination? = some v → v ∈ types.values
  /-- An operation has its type or waits, -/
  math : ∀ dst op lhs rhs, .math dst op lhs rhs ∈ f.instructions →
    dst ∈ types.values ∨ ⟨dst, lhs⟩ ∈ pending
  /-- and nothing else waits. -/
  waits : ∀ p ∈ pending, ∃ op rhs, .math p.dst op p.lhs rhs ∈ f.instructions

namespace Progress

variable {c : Context} {f : Function} {types : Typing} {pending : List Pending} {s : Scanned}

theorem of_scan (h : scan c ⟨parameterTypes f, []⟩ f.instructions = .ok s)
    (hnodup : (f.parameterValues.map Prod.fst ++ f.instructions.filterMap Instr.destination?).Nodup) :
    Progress f s.types s.pending := by
  have hscans := scan_ok h
  have hparameters : ∀ v ty, (v, ty) ∈ f.parameterValues → v ∈ s.types.values := by
    intro v ty hv
    exact Typing.mem_values_of_prefix hscans.grows (List.mem_map.mpr ⟨(v, ty), hv, rfl⟩)
  refine ⟨?_, ?_, hparameters, ?_, ?_, ?_⟩
  · refine hscans.values.nodup_iff.mp ?_
    rw [List.map_nil, List.append_nil]
    exact hnodup
  · refine scan_closed h ?_ ?_ ?_
    · intro v hv
      obtain ⟨p, hp, rfl⟩ := List.mem_map.mp hv
      exact .parameter hp
    · exact fun i hi hdirect dst hdst => .direct hi hdirect hdst
    · exact fun dst op lhs rhs hi => .math hi
  · intro i hi hdirect v hv
    rcases hscans.handled i hi with hcovers | ⟨dst, op, lhs, rhs, rfl, -⟩
    · obtain ⟨ty, hty, -⟩ := hcovers.yields hv
      exact Typing.mem_values_of_lookup hty
    · exact absurd rfl (hdirect dst op lhs rhs)
  · intro dst op lhs rhs hi
    rcases hscans.handled _ hi with ⟨ty, -, hty⟩ | ⟨_, _, _, _, heq, hwaits⟩
    · exact .inl (Typing.mem_values_of_lookup hty)
    · cases heq
      exact .inr hwaits
  · intro p hp
    rcases scan_pending h p hp with hnone | hmath
    · exact absurd hnone List.not_mem_nil
    · exact hmath

/-- **A round preserves it.** -/
theorem round (h : Progress f types pending) (hround : settleRound types pending = .ok s) :
    Progress f s.types s.pending := by
  have hsettled := settleRound_ok hround
  have hsub {v : ValueId} : v ∈ types.values → v ∈ s.types.values :=
    Typing.mem_values_of_prefix hsettled.grows
  refine ⟨hsettled.values.nodup_iff.mp h.nodup, ?_, ?_, ?_, ?_, ?_⟩
  · refine settleRound_closed hround h.grounded fun p hp hlhs => ?_
    obtain ⟨op, rhs, hmem⟩ := h.waits p hp
    exact .math hmem hlhs
  · exact fun v ty hv => hsub (h.parameters v ty hv)
  · exact fun i hi hdirect v hv => hsub (h.direct i hi hdirect v hv)
  · intro dst op lhs rhs hi
    rcases h.math dst op lhs rhs hi with hknown | hwaits
    · exact .inl (hsub hknown)
    · rcases hsettled.done _ hwaits with hwaits' | ⟨ty, -, hty⟩
      · exact .inr hwaits'
      · exact .inl (Typing.mem_values_of_lookup hty)
  · exact fun p hp => h.waits p ((settleRound_pending hround).subset hp)

/-- **When no left operand has a type, all chains that end are done.** By induction on the chain: a result
that waited for the value before it would not wait any more. -/
theorem mem_of_grounded (h : Progress f types pending) (hstuck : ∀ p ∈ pending, p.lhs ∉ types.values)
    {v : ValueId} (hv : f.Grounded v) : v ∈ types.values := by
  induction hv with
  | parameter known => exact h.parameters _ _ known
  | direct written direct result => exact h.direct _ written direct _ result
  | math written operand ih =>
    rcases h.math _ _ _ _ written with hknown | hwaits
    · exact hknown
    · exact absurd ih (hstuck _ hwaits)

end Progress

/-- **How the rounds end:** with all types, and then all chains end, or at the left operand of a result whose
chain does not. -/
theorem SettlesTo.outcome {f : Function} {types : Typing} {pending : List Pending}
    {r : Except LowerError Typing} (h : SettlesTo types pending r) (hprogress : Progress f types pending) :
    (∃ types', r = .ok types' ∧ f.AllGrounded) ∨
      ∃ dst op v rhs, .math dst op v rhs ∈ f.instructions ∧ ¬ f.Grounded dst ∧
        r = .error (.undefinedValue v) := by
  induction h with
  | done types =>
    refine .inl ⟨types, rfl, fun dst op lhs rhs hi => ?_⟩
    rcases hprogress.math dst op lhs rhs hi with hknown | hwaits
    · exact hprogress.grounded dst hknown
    · exact absurd hwaits List.not_mem_nil
  | refused round =>
    obtain ⟨s, hs⟩ := settleRound_total hprogress.nodup
    rw [round] at hs
    cases hs
  | @stuck types pending rest s p round same first =>
    obtain ⟨hsame, hstuck⟩ := settleRound_stuck round same
    have hp : p ∈ pending := by
      rw [← hsame, first]
      exact List.mem_cons_self
    obtain ⟨op, rhs, hmem⟩ := hprogress.waits p hp
    -- a result that waits has no type yet, and would have one if its chain ended
    refine .inr ⟨p.dst, op, p.lhs, rhs, hmem, fun hgrounded => ?_, rfl⟩
    have hknown := hprogress.mem_of_grounded hstuck hgrounded
    exact (List.nodup_append.mp hprogress.nodup).2.2 _ hknown _ (List.mem_map_of_mem hp) rfl
  | again round _ _ ih => exact ih (hprogress.round round)

/-! ## The types of a function -/

section Function

variable {c : Context} {f : Function}

/-- After the pass, the types are what the rounds end with. -/
theorem settlesTo_iff_valueTypes {s : Scanned} (hscan : scan c ⟨parameterTypes f, []⟩ f.instructions = .ok s)
    (r : Except LowerError Typing) : SettlesTo s.types s.pending r ↔ valueTypes c f = r := by
  have hends : SettlesTo s.types s.pending (valueTypes c f) := by
    unfold valueTypes
    rw [hscan]
    exact settlesTo_settle (Nat.le_refl _)
  constructor
  · exact fun h => hends.unique h
  · rintro rfl
    exact hends

/-- After the parameters come the results, each once. -/
theorem WellTyped.results {types : Typing} (h : WellTyped c f types) : ∃ found : Typing,
    types = f.parameterValues ++ found ∧ found.values.Perm (f.instructions.filterMap Instr.destination?) := by
  obtain ⟨found, rfl⟩ := h.parameters
  refine ⟨found, rfl, ?_⟩
  have hvalues := h.values
  rw [Typing.values, List.map_append] at hvalues
  exact (List.perm_append_left_iff _).mp hvalues

/-- **Inference fails only where a chain of left operands does not end.** -/
theorem valueTypes_outcome (hresolves : ∀ i ∈ f.instructions, i.Resolves c)
    (hnodup : (f.parameterValues.map Prod.fst ++ f.instructions.filterMap Instr.destination?).Nodup) :
    (∃ types, valueTypes c f = .ok types ∧ f.AllGrounded) ∨
      ∃ dst op v rhs, .math dst op v rhs ∈ f.instructions ∧ ¬ f.Grounded dst ∧
        valueTypes c f = .error (.undefinedValue v) := by
  obtain ⟨s, hscan⟩ := scan_total (s := ⟨parameterTypes f, []⟩) hresolves
    (by rw [List.map_nil, List.append_nil]; exact hnodup)
  have hends := (settlesTo_iff_valueTypes hscan _).mpr rfl
  exact hends.outcome (.of_scan hscan hnodup)

/-- **Values are typed completely and consistently.** -/
theorem valueTypes_exact (c : Context) (f : Function) :
    -- The rounds after the pass end, however long they take, and the answer is what they end with.
    (∀ s, scan c ⟨parameterTypes f, []⟩ f.instructions = .ok s →
      ∀ r, SettlesTo s.types s.pending r ↔ valueTypes c f = r) ∧
    -- A typing holds the parameters, then the results, and each result has the type of its definition.
    (∀ types, valueTypes c f = .ok types →
      (∃ found : Typing, types = f.parameterValues ++ found ∧
        found.values.Perm (f.instructions.filterMap Instr.destination?)) ∧
      types.values.Nodup ∧
      ∀ i ∈ f.instructions, ∀ dst, i.destination? = some dst →
        ∃ ty, types.lookup dst = some ty ∧ i.Yields c types ty) ∧
    -- Types are missing only where a chain of left operands does not end.
    ((∀ i ∈ f.instructions, i.Resolves c) →
      (f.parameterValues.map Prod.fst ++ f.instructions.filterMap Instr.destination?).Nodup →
      ((∃ types, valueTypes c f = .ok types) ↔ f.AllGrounded) ∧
      (¬ f.AllGrounded → ∃ dst op v rhs, .math dst op v rhs ∈ f.instructions ∧ ¬ f.Grounded dst ∧
        valueTypes c f = .error (.undefinedValue v))) := by
  refine ⟨fun s hscan => settlesTo_iff_valueTypes hscan, ?_, ?_⟩
  · intro types htypes
    have hwell := valueTypes_ok htypes
    exact ⟨hwell.results, hwell.nodup, fun i hi dst hdst => (hwell.covers i hi).yields hdst⟩
  · intro hresolves hnodup
    rcases valueTypes_outcome hresolves hnodup with ⟨types, htypes, hall⟩ |
      ⟨dst, op, v, rhs, hmem, hloose, hv⟩
    · exact ⟨iff_of_true ⟨types, htypes⟩ hall, fun hnot => absurd hall hnot⟩
    · have hnot : ¬ f.AllGrounded := fun hall => hloose (hall dst op v rhs hmem)
      refine ⟨iff_of_false ?_ hnot, fun _ => ⟨dst, op, v, rhs, hmem, hloose, hv⟩⟩
      rintro ⟨types, htypes⟩
      rw [hv] at htypes
      cases htypes

end Function

/-- Adds up values before it computes them. The last one starts from `foot`. -/
def rungs (foot : ValueId) : Function := ⟨"rungs", [.int], some .int,
  [⟨[.math ⟨4⟩ .add ⟨3⟩ ⟨0⟩, .jump ⟨1⟩]⟩,
   ⟨[.math ⟨3⟩ .multiply ⟨1⟩ ⟨0⟩, .callNative (some ⟨2⟩) "millisec" [], .math ⟨1⟩ .add foot ⟨2⟩,
     .ret (some ⟨4⟩)]⟩]⟩

/-- A context for `rungs`. -/
def rungsContext : Context := Context.initial { sourcePath := "rungs", functions := [rungs ⟨0⟩] } {}

theorem rungs_resolves (foot : ValueId) : ∀ i ∈ (rungs foot).instructions, i.Resolves rungsContext := by
  have hnative : ∃ native ty, SysFunction.lookup? "millisec" = some native ∧ native.result? = some ty :=
    ⟨⟨"millisec", 0x616977e8, 64, [], [.int]⟩, .int, by decide⟩
  simpa [rungs, Function.instructions, Instr.Resolves] using hnative

/-- From a parameter, all three sums have a type; in a circle, none has. -/
theorem valueTypes_exact_rungs :
    valueTypes rungsContext (rungs ⟨0⟩) =
      .ok [(⟨0⟩, .int), (⟨2⟩, .int), (⟨1⟩, .int), (⟨3⟩, .int), (⟨4⟩, .int)] ∧
    (rungs ⟨0⟩).AllGrounded ∧
    (∃ dst op v rhs, .math dst op v rhs ∈ (rungs ⟨4⟩).instructions ∧ ¬ (rungs ⟨4⟩).Grounded dst ∧
      valueTypes rungsContext (rungs ⟨4⟩) = .error (.undefinedValue v)) ∧
    valueTypes rungsContext (rungs ⟨4⟩) = .error (.undefinedValue ⟨3⟩) := by
  obtain ⟨-, -, hup⟩ := valueTypes_exact rungsContext (rungs ⟨0⟩)
  obtain ⟨-, -, hround⟩ := valueTypes_exact rungsContext (rungs ⟨4⟩)
  obtain ⟨htyped, -⟩ := hup (rungs_resolves ⟨0⟩) (by decide)
  obtain ⟨hfails, hloose⟩ := hround (rungs_resolves ⟨4⟩) (by decide)
  have hcircle : valueTypes rungsContext (rungs ⟨4⟩) = .error (.undefinedValue ⟨3⟩) := by rfl
  refine ⟨by rfl, htyped.mp ⟨_, by rfl⟩, hloose fun hall => ?_, hcircle⟩
  obtain ⟨types, htypes⟩ := hfails.mpr hall
  rw [hcircle] at htypes
  cases htypes

end DisBackend
