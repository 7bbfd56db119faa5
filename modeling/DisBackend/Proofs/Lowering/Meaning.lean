import DisBackend.Proofs.Lowering.Simulation

/-!
# `Proofs.Lowering.Meaning` — lowering preserves the meaning of a function

Lowered code simulates every run of its function, whatever the platform, the arguments, the globals and the
objects are. Calls have no meaning in `Ssa.Config.step?`, so that the runs are those of functions without
calls, and those of other functions up to the first call.

## Contents

* `CodeMap`, `CodeMap.Proper`, `CodeMap.Represents` — where things lie;
* `Machine.Entered` — the machine when a function is called;
* `lowerFunction_simulates` — whole runs, and the loop `swapLoop` as a case of it.
-/

namespace DisBackend

open Ssa (BlockId Config Function Memory Progress Ty ValueId)

/-! ## States that stand for each other -/

/-- Where lowering put the values and the instructions of a function: the frame offset of a value, and the
address of the code of an instruction. -/
structure CodeMap where
  slot : ValueId → Option Int
  address : BlockId → Nat → Nat

namespace CodeMap

/-- The code starts with the first instruction, a parameter lies where a caller puts the argument, and no
two values share a word. -/
structure Proper (place : CodeMap) (f : Function) : Prop where
  entry : place.address ⟨0⟩ 0 = 0
  parameter : ∀ k < f.parameters.length, place.slot ⟨k⟩ = some (headerBytes + wordBytes * k)
  distinct : ∀ {v w offset}, place.slot v = some offset → place.slot w = some offset → v = w

/-- The machine is at the code of the instruction where control is, every value that is bound lies in its
word, and module data and objects stand for globals and objects. -/
structure Represents (place : CodeMap) (c : Context) (config : Config) (m : Machine) : Prop where
  pc : m.pc = place.address config.block config.position
  values : ∀ {v x}, config.values v = some x →
    ∃ offset, place.slot v = some offset ∧ m.frame.word? offset = some x.word
  memory : MemoryRepresents c config.memory m

end CodeMap

/-- The machine is about to execute the code of `f`, which was called with `arguments`: its frame has the
size that the code needs and holds the arguments and, if there is a result, the address for it; the module
data is loaded. -/
structure Machine.Entered (f : Function) (c : Context) (fragment : Fragment) (arguments : List Datum)
    (memory : Memory) (m : Machine) : Prop where
  pc : m.pc = 0
  frame : wordBytes * m.frame.length = fragment.frame.size
  arguments : ∀ k < f.parameters.length, ∀ w, arguments[k]? = some w →
    m.frame.word? (headerBytes + wordBytes * k) = some w
  returnAddress : f.result.isSome → m.frame.word? returnSlot = some .result
  loaded : c.Loaded m.data
  memory : MemoryRepresents c memory m

theorem Machine.Entered.agrees {f : Function} {c c' : Context} {fragment : Fragment}
    {arguments : List Datum} {memory : Memory} {m : Machine}
    (h : m.Entered f c' fragment arguments memory) (L : Lowering f c fragment c') :
    Agrees L m.result (Config.initial f arguments memory) m where
  values {v x} hv := by
    simp only [Config.initial, Option.bind_eq_bind, Option.bind_eq_some_iff, Option.pure_def,
      Option.some.injEq] at hv
    obtain ⟨ty, hty, w, hw, rfl⟩ := hv
    have hlt := (List.getElem?_eq_some_iff.mp hty).1
    exact ⟨_, L.parameter_slot hty, rfl, h.arguments v.index hlt w hw⟩
  memory := h.memory
  loaded := h.loaded
  frame := by
    have hsize := h.frame
    unfold Frame.size wordOffset wordBytes headerBytes at hsize
    omega
  returnAddress := h.returnAddress
  result := rfl
  unbound {v} hv := by
    obtain ⟨op, lhs, rhs, hcompare, -⟩ := hv
    have hle := L.wellTyped.destination_not_parameter hcompare rfl
    simp [Config.initial, List.getElem?_eq_none hle]

/-- **Lowering preserves the meaning of a function.** The words of the values and the addresses of the
instructions can be chosen once, so that every run of the function, on every platform and for all arguments
and memories, is simulated by the code: from each instruction of the run the machine comes to the next, and
at each the machine stands for the function. When the function returns the machine stops, with the result
where the caller wants it; a function without a result leaves it alone. -/
theorem lowerFunction_simulates {f : Function} {c c' : Context} {fragment : Fragment}
    (h : lowerFunction f c = .ok fragment c') :
    ∃ place : CodeMap, place.Proper f ∧
      ∀ (P : Platform) (arguments : List Datum) (memory : Memory) (m : Machine),
        m.Entered f c' fragment arguments memory →
      ∀ (n : Nat) (run : Nat → Config), run 0 = Config.initial f arguments memory →
        (∀ k < n, (run k).step? P c'.declared f = some (.next (run (k + 1)))) →
      ∃ trace : Nat → Machine, trace 0 = m ∧
        (∀ k < n, (trace k).Reaches P fragment (trace (k + 1))) ∧
        (∀ k ≤ n, place.Represents c' (run k) (trace k)) ∧
        ∀ w memory', (run n).step? P c'.declared f = some (.returned w memory') →
          ∃ m', (trace n).Reaches P fragment m' ∧ m'.Stopped fragment ∧
            m'.result = w.or m.result ∧ MemoryRepresents c' memory' m' := by
  obtain ⟨L⟩ := lowerFunction_lowering h
  refine ⟨⟨fun v => (L.slots.lookup v).map Slot.offset, L.address⟩, ⟨?_, ?_, ?_⟩, ?_⟩
  · simp [L.address_zero, Lowering.blockAddress]
  · intro k hk
    have hslot := L.parameter_slot (List.getElem?_eq_getElem hk)
    simp only [hslot, Option.map_some]
    rfl
  · intro v w offset hv hw
    obtain ⟨a, ha, rfl⟩ := Option.map_eq_some_iff.mp hv
    obtain ⟨b, hb, ho⟩ := Option.map_eq_some_iff.mp hw
    exact L.slot_injective ha hb ho.symm
  · intro P arguments memory m hentered n run hrun₀ hrun
    have hstart : Agrees L m.result (run 0) m := hrun₀ ▸ hentered.agrees L
    have hpc : m.pc = L.address (run 0).block (run 0).position := by
      rw [hentered.pc, hrun₀]
      simp [Config.initial, L.address_zero, Lowering.blockAddress]
    obtain ⟨trace, htrace₀, hreaches, hagrees⟩ := hstart.simulated_run hpc hrun
    refine ⟨trace, htrace₀, hreaches, fun k hk => ?_, fun w memory' hreturn => ?_⟩
    · obtain ⟨hpc', hagrees'⟩ := hagrees k hk
      refine ⟨hpc', fun {v x} hv => ?_, hagrees'.memory⟩
      obtain ⟨slot, hslot, -, hword⟩ := hagrees'.values hv
      exact ⟨slot.offset, by simp only [hslot, Option.map_some], hword⟩
    · obtain ⟨hpc', hagrees'⟩ := hagrees n (Nat.le_refl n)
      exact hagrees'.simulated_return hpc' hreturn

/-! ## A loop whose phis change places -/

/-- Exchanges two numbers as often as its argument says and subtracts the second from the first. One of
the numbers is too large for an operand. -/
def swapLoop : Function where
  name := "swap"
  parameters := [.int]
  result := some .int
  blocks := [
    ⟨[.const ⟨1⟩ (.int 1), .const ⟨2⟩ (.int 5000000000), .const ⟨3⟩ (.int 0), .jump ⟨1⟩]⟩,
    ⟨[.phi ⟨4⟩ .int [⟨⟨0⟩, ⟨1⟩⟩, ⟨⟨2⟩, ⟨5⟩⟩], .phi ⟨5⟩ .int [⟨⟨0⟩, ⟨2⟩⟩, ⟨⟨2⟩, ⟨4⟩⟩],
      .phi ⟨6⟩ .int [⟨⟨0⟩, ⟨3⟩⟩, ⟨⟨2⟩, ⟨8⟩⟩], .compare ⟨7⟩ .less ⟨6⟩ ⟨0⟩,
      .branch ⟨7⟩ ⟨2⟩ ⟨3⟩]⟩,
    ⟨[.math ⟨8⟩ .add ⟨6⟩ ⟨1⟩, .jump ⟨1⟩]⟩,
    ⟨[.math ⟨9⟩ .subtract ⟨4⟩ ⟨5⟩, .ret (some ⟨9⟩)]⟩]

/-- The code of the loop: the exchange goes through the words from 144 on. -/
def swapLoopCode : Fragment where
  name := "swap"
  code := [
    .binary .movw (.imm 1) (.fp 72), .binary .movw (.mp 16) (.fp 80), .binary .movw (.imm 0) (.fp 88),
    .binary .movw (.fp 72) (.fp 96), .binary .movw (.fp 80) (.fp 104),
    .binary .movw (.fp 88) (.fp 112), .unary .jmp (.imm 7),
    .binary .movw (.imm 1) (.fp 120), .ternary .bltw (.fp 112) (.fp 64) (.imm 10),
    .binary .movw (.imm 0) (.fp 120), .ternary .bnew (.fp 120) (.imm 0) (.imm 12),
    .unary .jmp (.imm 20),
    .ternary .addw (.fp 112) (.fp 72) (.fp 136), .binary .movw (.fp 104) (.fp 144),
    .binary .movw (.fp 96) (.fp 152), .binary .movw (.fp 136) (.fp 160),
    .binary .movw (.fp 144) (.fp 96), .binary .movw (.fp 152) (.fp 104),
    .binary .movw (.fp 160) (.fp 112), .unary .jmp (.imm 7),
    .ternary .subw (.fp 104) (.fp 96) (.fp 128), .binary .movw (.fp 128) (.fpIndirect 32 0),
    .plain .ret]
  frame := ⟨List.replicate 13 false⟩

/-- A context without globals, before and after the loop is lowered. -/
def swapLoopContext (cells : List Cell) (log : Log) : Context :=
  { program := ⟨"swap.b", "swap", [], [swapLoop]⟩, cells := [.handle, .string "$Sys"] ++ cells,
    natives := [], log }

theorem lowerFunction_swapLoop :
    lowerFunction swapLoop (swapLoopContext [] #[]) = .ok swapLoopCode
      (swapLoopContext [.long 5000000000]
        #[.dataPlaced 16 "5000000000" false, loweredEvent swapLoopCode]) := rfl

/-- A platform on which reals are added and multiplied as bit patterns. -/
def bitPlatform : Platform where
  add a b := ⟨a.bits + b.bits⟩
  subtract a b := ⟨a.bits - b.bits⟩
  multiply a b := ⟨a.bits * b.bits⟩
  divide a b := ⟨a.bits / b.bits⟩
  order a b := some (compare a.bits b.bits)
  fresh _ _ := .int 0
  add_comm a b := by rw [UInt64.add_comm]
  multiply_comm a b := by rw [UInt64.mul_comm]

/-- The machine when the loop is called with the argument 1. -/
def swapLoopStart : Machine where
  pc := 0
  frame := List.replicate 4 (.int 0) ++ [.result] ++ List.replicate 3 (.int 0) ++ [.int 1]
    ++ List.replicate 12 (.int 0)
  data := [.int 0, .string "$Sys", .int 5000000000]
  heap := []
  result := none

/-- The next configuration, if the function goes on. -/
def Ssa.Progress.next? : Progress → Option Config
  | .next c => some c
  | .returned .. => none

/-- The word returned, if the function is at its end. -/
def Ssa.Progress.word? : Progress → Option Datum
  | .next _ => none
  | .returned w _ => w

/-- The configuration after `k` steps, as far as the function goes on. -/
def Ssa.Config.after (P : Platform) (declared : String → Option Ty) (f : Function) (c : Config) :
    Nat → Config
  | 0 => c
  | k + 1 =>
    let before := c.after P declared f k
    ((before.step? P declared f).bind Progress.next?).getD before

theorem Ssa.Config.step?_after {P : Platform} {declared : String → Option Ty} {f : Function}
    {c : Config} {k : Nat}
    (h : (((c.after P declared f k).step? P declared f).bind Progress.next?).isSome) :
    (c.after P declared f k).step? P declared f = some (.next (c.after P declared f (k + 1))) := by
  obtain ⟨c', hc'⟩ := Option.isSome_iff_exists.mp h
  obtain ⟨progress, hstep, hnext⟩ := Option.bind_eq_some_iff.mp hc'
  cases progress with
  | returned _ _ => cases hnext
  | next _ => cases hnext; rw [Config.after, hc', hstep]; rfl

theorem swapLoopStart_entered (log : Log) :
    swapLoopStart.Entered swapLoop (swapLoopContext [.long 5000000000] log) swapLoopCode [.int 1]
      ⟨fun _ => .int 0, []⟩ where
  pc := rfl
  frame := rfl
  arguments k hk w hw := by
    have hk : k = 0 := Nat.lt_one_iff.mp hk
    subst hk
    cases hw
    rfl
  returnAddress _ := rfl
  loaded := by
    have hitems : (swapLoopContext [.long 5000000000] log).items
        = [.string 8 "$Sys", .longs 16 [5000000000]] := rfl
    intro item hitem k w hw
    rw [hitems] at hitem
    simp only [List.mem_cons, List.not_mem_nil, or_false] at hitem
    rcases hitem with rfl | rfl
    · cases k with
      | zero => cases hw; rfl
      | succ k => cases hw
    · cases k with
      | zero => cases hw; rfl
      | succ k => cases hw
  memory := ⟨(nomatch ·), .refl []⟩

/-- The configuration after `k` steps of the loop, called with the argument 1. -/
def swapLoopRun (k : Nat) : Config :=
  (Config.initial swapLoop [.int 1] ⟨fun _ => .int 0, []⟩).after bitPlatform (fun _ => none) swapLoop k

theorem lowerFunction_simulates_swapLoop :
    ∃ (trace : Nat → Machine) (m : Machine), trace 0 = swapLoopStart ∧
      (∀ k < 17, (trace k).Reaches bitPlatform swapLoopCode (trace (k + 1))) ∧
      (trace 17).Reaches bitPlatform swapLoopCode m ∧ m.Stopped swapLoopCode ∧
      m.result = some (.int 4999999999) := by
  have hrun : ∀ k < 17, (((swapLoopRun k).step? bitPlatform (fun _ => none) swapLoop).bind
      Progress.next?).isSome := by decide +kernel
  have hword : ((swapLoopRun 17).step? bitPlatform (fun _ => none) swapLoop).bind Progress.word?
      = some (.int 4999999999) := by decide +kernel
  obtain ⟨progress, hstep, hreturned⟩ := Option.bind_eq_some_iff.mp hword
  cases progress with
  | next _ => cases hreturned
  | returned w memory =>
    obtain ⟨_, -, hsimulates⟩ := lowerFunction_simulates lowerFunction_swapLoop
    obtain ⟨trace, hstart, hreaches, -, hreturn⟩ := hsimulates bitPlatform [.int 1] _ swapLoopStart
      (swapLoopStart_entered _) 17 swapLoopRun rfl fun k hk => Config.step?_after (hrun k hk)
    obtain ⟨m, hreach, hstopped, hresult, -⟩ := hreturn w memory hstep
    cases hreturned
    exact ⟨trace, m, hstart, hreaches, hreach, hstopped, hresult⟩

end DisBackend
