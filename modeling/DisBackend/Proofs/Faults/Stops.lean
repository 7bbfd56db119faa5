import DisBackend.Proofs.Descriptor

/-!
# `Proofs.Faults.Stops` — why computations stop

A computation that does not end well stops with an error or a fault. Errors are verdicts on the program.
Of the faults, some say that a limit of the machine was exceeded, and all others that one part of the
compiler broke the rules of another. `StopsFor` says which of them a computation can stop with, and is
established along the computation, without unfolding the monad.

## Contents

* `Fault.IsLimit`, `Stop.IsFair`, `Stop.IsOfBody` — the limits of the machine, and verdicts besides;
* `FailsFor`, `StopsFor` — the reasons to stop, of computations without and with a state;
* `StopsFor.orStop`, `StopsFor.lowerAll`, `stopsFor_withContext` — of the stages of a compilation;
* `failsFor_describe`, `failsFor_allocate`, … — the operations on storage.
-/

namespace DisBackend

/-! ## Limits -/

/-- A limit of the machine was exceeded: a size or an offset has no 32-bit form, module data is out of
reach of operands, or an operand cannot be encoded. -/
def Fault.IsLimit : Fault → Prop
  | .addOverflow | .mulOverflow => True
  | .moduleDataFull _ offset => operandMax - wordBytes < offset
  | .inconsistentModule _ (.operandOutOfRange _ i) =>
    ∃ operand ∈ i.operands, ∃ value ∈ operand.values, ¬ Encodable value
  | _ => False

/-- The program was refused, or a limit of the machine was exceeded. -/
def Stop.IsFair : Stop → Prop
  | .error _ => True
  | .fault cause => cause.IsLimit

/-- The refusal is not for a second definition of a value. -/
def LowerError.NotRedefinition : LowerError → Prop
  | .redefinition _ => False
  | _ => True

/-- Why a function is not lowered whose values have their types: it was refused, but not for a second
definition, or a limit of the machine was exceeded. -/
def Stop.IsOfBody : Stop → Prop
  | .error e => e.NotRedefinition
  | .fault cause => cause.IsLimit

theorem Stop.IsOfBody.isFair {stop : Stop} (h : stop.IsOfBody) : stop.IsFair := by
  cases stop with
  | error e => trivial
  | fault cause => exact h

/-- The program was refused, or a limit of the machine was exceeded. -/
def CompileStop.IsFair : CompileStop → Prop
  | .error _ => True
  | .fault cause => cause.IsLimit

/-! ## Computations without a state -/

/-- If `x` fails, it is for a reason that `Q` allows. -/
def FailsFor {ε α : Type} (Q : ε → Prop) (x : Except ε α) : Prop := ∀ e, x = .error e → Q e

namespace FailsFor

variable {ε α β : Type} {Q : ε → Prop}

theorem ok {a : α} : FailsFor Q (.ok a) := nofun

theorem pure {a : α} : FailsFor Q (pure a) := nofun

theorem error {e : ε} (h : Q e) : FailsFor Q (.error e : Except ε α) := by
  rintro _ ⟨⟩
  exact h

theorem bind {x : Except ε α} {k : α → Except ε β} (hx : FailsFor Q x)
    (hk : ∀ a, x = .ok a → FailsFor Q (k a)) : FailsFor Q (x >>= k) := by
  cases x with
  | ok a => exact hk a rfl
  | error e => exact .error (hx e rfl)

theorem map {x : Except ε α} {g : α → β} (hx : FailsFor Q x) : FailsFor Q (x.map g) := by
  cases x with
  | ok a => exact .ok
  | error e => exact .error (hx e rfl)

theorem ite {c : Prop} [Decidable c] {x y : Except ε α} (hx : c → FailsFor Q x)
    (hy : ¬ c → FailsFor Q y) : FailsFor Q (if c then x else y) := by
  split
  · next hc => exact hx hc
  · next hc => exact hy hc

theorem mapM {g : α → Except ε β} {as : List α} (h : ∀ a ∈ as, FailsFor Q (g a)) :
    FailsFor Q (as.mapM g) := by
  induction as with
  | nil =>
    rw [List.mapM_nil]
    exact .pure
  | cons a as ih =>
    rw [List.mapM_cons]
    refine .bind (h a List.mem_cons_self) fun b _ => ?_
    exact .bind (ih fun a' ha' => h a' (List.mem_cons_of_mem _ ha')) fun bs _ => .pure

end FailsFor

/-! ## Computations on a state -/

/-- If `m` stops when it is run on `s`, it is for a reason that `Q` allows. -/
def StopsFor {ε σ α : Type} (Q : ε → Prop) (m : EStateM ε σ α) (s : σ) : Prop :=
  ∀ e s', m s = .error e s' → Q e

namespace StopsFor

variable {ε σ α β : Type} {Q : ε → Prop} {s : σ}

theorem pure {a : α} : StopsFor Q (pure a : EStateM ε σ α) s := nofun

theorem throw {e : ε} (h : Q e) : StopsFor Q (throw e : EStateM ε σ α) s := by
  rintro _ _ ⟨⟩
  exact h

theorem get : StopsFor Q (get : EStateM ε σ σ) s := nofun

theorem set {t : σ} : StopsFor Q (set t : EStateM ε σ PUnit) s := nofun

theorem modify {f : σ → σ} : StopsFor Q (modify f : EStateM ε σ PUnit) s := nofun

/-- **One computation after the other** stops for the reasons of either, and the second one is run only on
what the first one left. -/
theorem bind {x : EStateM ε σ α} {k : α → EStateM ε σ β} (hx : StopsFor Q x s)
    (hk : ∀ a t, x s = .ok a t → StopsFor Q (k a) t) : StopsFor Q (x >>= k) s := by
  intro e s' h
  have hbind : EStateM.bind x k s = .error e s' := h
  unfold EStateM.bind at hbind
  cases hrun : x s with
  | ok a t =>
    rw [hrun] at hbind
    exact hk a t hrun e s' hbind
  | error e' t =>
    rw [hrun] at hbind
    cases hbind
    exact hx e s' hrun

theorem map {x : EStateM ε σ α} {g : α → β} (hx : StopsFor Q x s) : StopsFor Q (g <$> x) s := by
  intro e s' h
  have hmap : EStateM.map g x s = .error e s' := h
  unfold EStateM.map at hmap
  cases hrun : x s with
  | ok a t =>
    rw [hrun] at hmap
    cases hmap
  | error e' t =>
    rw [hrun] at hmap
    cases hmap
    exact hx e s' hrun

theorem ite {c : Prop} [Decidable c] {x y : EStateM ε σ α} (hx : c → StopsFor Q x s)
    (hy : ¬ c → StopsFor Q y s) : StopsFor Q (if c then x else y) s := by
  split
  · next hc => exact hx hc
  · next hc => exact hy hc

theorem mapM {g : α → EStateM ε σ β} {as : List α} (h : ∀ a t, StopsFor Q (g a) t) :
    StopsFor Q (as.mapM g) s := by
  induction as generalizing s with
  | nil =>
    rw [List.mapM_nil]
    exact .pure
  | cons a as ih =>
    rw [List.mapM_cons]
    exact .bind (h a s) fun b t _ => .bind ih fun bs u _ => .pure

theorem forM {g : α → EStateM ε σ PUnit} {as : List α} (h : ∀ a t, StopsFor Q (g a) t) :
    StopsFor Q (as.forM g) s := by
  induction as generalizing s with
  | nil => exact .pure
  | cons a as ih => exact .bind (h a s) fun _ t _ => ih

theorem liftResult {x : Except ε α} {log : Log} (h : FailsFor Q x) : StopsFor Q (liftResult x) log := by
  cases x with
  | ok a => exact .pure
  | error e => exact .throw (h e rfl)

end StopsFor

/-! ## Stages of a compilation -/

namespace StopsFor

variable {Q : CompileStop → Prop}

/-- A fault stays what it is. -/
theorem orStop {σ α : Type} {P : Fault → Prop} {m : EStateM Fault σ α} {s : σ} (h : StopsFor P m s)
    (hQ : ∀ fault, P fault → Q (.fault fault)) : StopsFor Q (orStop m) s := by
  intro stop s' hrun
  unfold DisBackend.orStop at hrun
  cases hm : m s with
  | ok a t =>
    rw [hm] at hrun
    cases hrun
  | error fault t =>
    rw [hm] at hrun
    cases hrun
    exact hQ fault (h fault s' hm)

/-- Functions one after the other stop for the reasons of each. -/
theorem lowerAll {P : Stop → Prop} {lower : Lowerer} (h : ∀ f c, StopsFor P (lower f) c)
    (hQ : ∀ name stop, P stop → Q (.ofStop name stop)) (fs : List Ssa.Function) {c : Context} :
    StopsFor Q (lowerAll lower fs) c := by
  induction fs generalizing c with
  | nil => exact .pure
  | cons f fs ih =>
    refine .bind .modify fun _ c₁ _ => .bind (fun stop c₂ hrun => ?_) fun _ _ _ => .bind ih fun _ _ _ => .pure
    cases hlower : lower f c₁ with
    | ok fragment c₃ =>
      rw [hlower] at hrun
      cases hrun
    | error stop' c₃ =>
      rw [hlower] at hrun
      cases hrun
      exact hQ f.name stop' (h f c₁ stop' c₂ hlower)

end StopsFor

theorem stopsFor_withContext {α : Type} {Q : CompileStop → Prop} {program : Ssa.Program}
    {m : EStateM CompileStop Context α} (h : ∀ c, StopsFor Q m c) (log : Log) :
    StopsFor Q (withContext program m) log := by
  intro stop log' hrun
  unfold withContext at hrun
  cases hm : m (Context.initial program log) with
  | ok a c =>
    rw [hm] at hrun
    cases hrun
  | error stop' c =>
    rw [hm] at hrun
    cases hrun
    exact h _ stop c hm

/-! ## Storage -/

section Storage

theorem failsFor_checkedAdd (a b : Int) : FailsFor Fault.IsLimit (checkedAdd a b) :=
  .ite (fun _ => .ok) fun _ => .error trivial

theorem failsFor_checkedMul (a b : Int) : FailsFor Fault.IsLimit (checkedMul a b) :=
  .ite (fun _ => .ok) fun _ => .error trivial

/-- **An area that starts at a word can be described,** unless it is too large. -/
theorem failsFor_describe (id size : Int) {base : Int} (words : List Bool) {first : Nat}
    (hbase : base = wordBytes * (first : Int)) : FailsFor Fault.IsLimit (describe id size base words) := by
  unfold describe TypeDescriptor.blank
  refine .bind (.bind (failsFor_checkedAdd _ _) fun _ _ => .pure) fun d _ => ?_
  obtain ⟨d', hd'⟩ := d.setPointers_total (words_of_pointerOffsetsFrom words hbase)
  rw [hd']
  exact .ok

theorem failsFor_allocate (frame : Frame) (pointer : Bool) :
    FailsFor Fault.IsLimit (frame.allocate pointer) :=
  .bind (failsFor_checkedAdd _ _) fun _ _ => .pure

/-- Module data is full when the next word is out of reach. -/
theorem failsFor_reserve (data : ModuleData) (tag : String) (pointer : Bool) :
    FailsFor Fault.IsLimit (data.allocate tag pointer) :=
  .ite (fun _ => .ok) fun hfull => .error (Int.not_le.mp hfull)

theorem failsFor_parameterIsPointer (native : SysFunction) (index : Nat) :
    FailsFor Fault.IsLimit (native.parameterIsPointer index) :=
  .bind (failsFor_checkedMul _ _) fun _ _ => .bind (failsFor_checkedAdd _ _) fun _ _ => .pure

end Storage
end DisBackend
