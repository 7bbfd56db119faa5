import DisBackend.Linking
import DisBackend.Proofs.Outcome

/-!
# `Proofs.Linking.Fragments` — a fragment in its place

Moving an instruction and filling in a call are described as total functions, without the limits of the
machine; what the linker returns is what they say. `Fragment.LinkedAs` collects what becomes of a fragment.

## Contents

* `Instruction.movedTo`, `Handler.movedTo`, `PatchKind.fill`, and `relocate_ok`, `apply_ok`;
* `checkPatches_ok` — no instruction is patched twice;
* `Fragment.LinkedAs`, `linkFragment_linkedAs` — what the linker makes of one fragment;
* `linkFragments_linkedAs` — and of fragments one after the other.
-/

namespace DisBackend

/-! ## Moving and filling in -/

/-- A number, `amount` further; the other forms stay. -/
def Operand.plus (amount : Int) : Operand → Operand
  | .imm value => .imm (value + amount)
  | operand => operand

/-- An instruction whose fragment starts at `start` and has its call sites numbered from `callSiteBase`
on. -/
def Instruction.movedTo (start callSiteBase : Int) (i : Instruction) : Instruction where
  opcode := i.opcode
  src := if i.opcode = .frame ∨ i.opcode = .new then i.src.plus callSiteBase else i.src
  mid := if i.opcode = .newa then i.mid.plus callSiteBase else i.mid
  dst := if i.opcode.isBranch then i.dst.plus start else i.dst

/-- A handler whose fragment starts at `start`. -/
def Handler.movedTo (start : Int) (h : Handler) : Handler :=
  { h with
    pc1 := h.pc1 + start
    pc2 := h.pc2 + start
    cases := h.cases.map fun c => { c with pc := c.pc + start }
    wildcardPc := if 0 ≤ h.wildcardPc then h.wildcardPc + start else h.wildcardPc }

/-- An instruction with the frame id or the address of a callee filled in. -/
def PatchKind.fill (kind : PatchKind) (i : Instruction) (callee : Placement) : Instruction :=
  match kind with
  | .frameId => { i with src := .imm callee.frameId }
  | .callAddress => { i with dst := .imm callee.address }

theorem Operand.shift_ok {amount : Int} {o o' : Operand} (h : o.shift amount = .ok o') :
    o' = o.plus amount := by
  cases o with
  | imm value =>
    simp only [shift, except_map_ok_iff, checkedAdd_ok_iff] at h
    obtain ⟨_, ⟨-, rfl⟩, rfl⟩ := h
    rw [plus, Int.add_comm]
  | absent | fp | mp | fpIndirect | mpIndirect => cases h; rfl

theorem Opcode.typeInSource_iff (op : Opcode) : op.typeInSource = true ↔ op = .frame ∨ op = .new := by
  cases op <;> simp [typeInSource]

theorem Opcode.typeInMiddle_iff (op : Opcode) : op.typeInMiddle = true ↔ op = .newa := by
  cases op <;> simp [typeInMiddle]

/-- A step that is taken in one of two ways. -/
theorem except_ite_bind_ok_iff {ε α β : Type} {c : Prop} [Decidable c] {x y : Except ε α}
    {k : α → Except ε β} {b : β} :
    (if c then x >>= k else y >>= k) = .ok b ↔ ∃ a, (if c then x else y) = .ok a ∧ k a = .ok b := by
  split <;> exact except_bind_ok_iff

/-- One operand, moved if the operation says so. -/
theorem shift_if_ok {c : Prop} [Decidable c] {b : Bool} {amount : Int} {o o' : Operand}
    (hc : b = true ↔ c) (h : (if b = true then o.shift amount else pure o) = .ok o') :
    o' = if c then o.plus amount else o := by
  by_cases hb : b = true
  · rw [if_pos hb] at h
    rw [if_pos (hc.mp hb), Operand.shift_ok h]
  · rw [if_neg hb] at h
    rw [if_neg (mt hc.mpr hb)]
    cases h
    rfl

theorem Instruction.relocate_ok {start callSiteBase : Int} {i i' : Instruction}
    (h : i.relocate start callSiteBase = .ok i') : i' = i.movedTo start callSiteBase := by
  simp only [relocate, except_ite_bind_ok_iff, except_pure_ok_iff] at h
  obtain ⟨src, hsrc, mid, hmid, dst, hdst, rfl⟩ := h
  unfold movedTo
  rw [shift_if_ok i.opcode.typeInSource_iff hsrc, shift_if_ok i.opcode.typeInMiddle_iff hmid,
    shift_if_ok Iff.rfl hdst]

theorem ExceptionCase.mapM_relocate_ok {start : Int} {cases cases' : List ExceptionCase}
    (h : cases.mapM (relocate start) = .ok cases') :
    cases' = cases.map fun c => { c with pc := c.pc + start } := by
  rw [except_mapM_ok_iff] at h
  induction h with
  | nil => rfl
  | cons hhead _ ih =>
    simp only [relocate, except_map_ok_iff, checkedAdd_ok_iff] at hhead
    obtain ⟨_, ⟨-, rfl⟩, rfl⟩ := hhead
    rw [List.map_cons, ih]

theorem Handler.relocate_ok {start : Int} {h h' : Handler} (hok : h.relocate start = .ok h') :
    h' = h.movedTo start := by
  simp only [relocate, except_bind_ok_iff, except_ite_bind_ok_iff, except_pure_ok_iff,
    checkedAdd_ok_iff] at hok
  obtain ⟨_, ⟨-, rfl⟩, _, ⟨-, rfl⟩, cases, hcases, wildcardPc, hwildcardPc, rfl⟩ := hok
  unfold movedTo
  rw [ExceptionCase.mapM_relocate_ok hcases]
  by_cases hwild : 0 ≤ h.wildcardPc
  · rw [if_pos hwild, checkedAdd_ok_iff] at hwildcardPc
    rw [if_pos hwild, hwildcardPc.2]
  · rw [if_neg hwild, except_pure_ok_iff] at hwildcardPc
    rw [if_neg hwild, hwildcardPc]

theorem PatchKind.apply_ok {kind : PatchKind} {i i' : Instruction} {callee : Placement}
    (h : kind.apply i callee = .ok i') : i' = kind.fill i callee := by
  cases kind with
  | frameId =>
    unfold apply at h
    by_cases himm : i.src.immediate?.isSome
    · rw [if_pos himm] at h; cases h; rfl
    · rw [if_neg himm] at h; cases h
  | callAddress =>
    unfold apply at h
    by_cases himm : i.dst.immediate?.isSome
    · rw [if_pos himm] at h; cases h; rfl
    · rw [if_neg himm] at h; cases h

/-! ## One fragment -/

/-- **No instruction is patched twice:** of the patches that were checked, the one of an instruction is
the one that is found. -/
theorem checkPatches_ok {name : String} {length : Nat} {seen : List Nat} {patches : List Patch}
    {u : Unit} (h : checkPatches name length seen patches = .ok u) :
    ∀ p ∈ patches, p.instruction < length ∧ p.instruction ∉ seen ∧
      patches.find? (·.instruction == p.instruction) = some p := by
  induction patches generalizing seen with
  | nil => simp
  | cons q rest ih =>
    unfold checkPatches at h
    by_cases hlength : length ≤ q.instruction
    · rw [if_pos hlength] at h; cases h
    rw [if_neg hlength] at h
    by_cases hseen : seen.contains q.instruction
    · rw [if_pos hseen] at h; cases h
    rw [if_neg hseen] at h
    rw [List.contains_iff_mem] at hseen
    intro p hp
    rcases List.mem_cons.mp hp with rfl | hp
    · exact ⟨by omega, hseen, by simp⟩
    · obtain ⟨hlt, hnew, hfind⟩ := ih h p hp
      rw [List.mem_cons, not_or] at hnew
      refine ⟨hlt, hnew.2, ?_⟩
      rw [List.find?_cons_of_neg (by simpa using Ne.symm hnew.1)]
      exact hfind

variable {f : Fragment} {place : Place} {log log' : Log}

theorem liftResult_ok_iff {ε α : Type} {x : Except ε α} {a : α} :
    liftResult x log = .ok a log' ↔ x = .ok a ∧ log = log' := by
  cases x with
  | error e => exact ⟨nofun, nofun⟩
  | ok b => rw [liftResult, pure_ok_iff, Except.ok.injEq]

/-- One instruction: relocated, or filled in. -/
theorem linkInstruction_ok {index : Nat} {i i' : Instruction}
    (h : linkInstruction f place index i log = .ok i' log') :
    (f.patches.find? (·.instruction == index) = none ∧
      i' = i.movedTo place.start place.callSiteBase) ∨
    ∃ patch callee, f.patches.find? (·.instruction == index) = some patch ∧
      place.callee? patch.callee = some callee ∧ i' = patch.kind.fill i callee := by
  unfold linkInstruction at h
  cases hpatch : f.patches.find? (·.instruction == index) with
  | none =>
    rw [hpatch] at h
    exact .inl ⟨rfl, Instruction.relocate_ok (liftResult_ok_iff.mp h).1⟩
  | some patch =>
    simp only [hpatch] at h
    cases hcallee : place.callee? patch.callee with
    | none => simp only [hcallee] at h; cases h
    | some callee =>
      simp only [hcallee, bind_ok_iff, liftResult_ok_iff] at h
      obtain ⟨_, _, -, happly, -⟩ := h
      exact .inr ⟨patch, callee, rfl, hcallee, PatchKind.apply_ok happly⟩

/-- The code from number `index` on, instruction by instruction. -/
theorem linkCode_ok {index : Nat} {is is' : List Instruction}
    (h : linkCode f place index is log = .ok is' log') :
    is'.length = is.length ∧ ∀ n i, is[n]? = some i →
      ∃ i' log log', is'[n]? = some i' ∧ linkInstruction f place (index + n) i log = .ok i' log' := by
  induction is generalizing index is' log with
  | nil =>
    simp only [linkCode, pure_ok_iff] at h
    obtain ⟨rfl, -⟩ := h
    exact ⟨rfl, by simp⟩
  | cons i is ih =>
    simp only [linkCode, bind_ok_iff, pure_ok_iff] at h
    obtain ⟨i', log₁, hi', is', _, his', rfl, rfl⟩ := h
    obtain ⟨hlength, hrest⟩ := ih his'
    refine ⟨by rw [List.length_cons, hlength, List.length_cons], fun n j hj => ?_⟩
    cases n with
    | zero =>
      cases hj
      exact ⟨i', log, log₁, rfl, hi'⟩
    | succ n =>
      obtain ⟨j', log, log', hj', hlink⟩ := hrest n j hj
      rw [Nat.add_right_comm] at hlink
      exact ⟨j', log, log', hj', hlink⟩

/-- What becomes of a fragment in its place. -/
structure Fragment.LinkedAs (f : Fragment) (place : Place) (linked : LinkedFragment) : Prop where
  length : linked.code.length = f.code.length
  /-- A patched instruction names its callee and is otherwise as it was. -/
  patched : ∀ patch ∈ f.patches, ∃ i callee, f.code[patch.instruction]? = some i ∧
    place.callee? patch.callee = some callee ∧
    linked.code[patch.instruction]? = some (patch.kind.fill i callee)
  /-- Every other instruction is moved. -/
  moved : ∀ n i, f.code[n]? = some i → (∀ patch ∈ f.patches, patch.instruction ≠ n) →
    linked.code[n]? = some (i.movedTo place.start place.callSiteBase)
  callSites : linked.callSites = renumber place.callSiteBase f.callSites
  handlers : linked.handlers = f.handlers.map (Handler.movedTo place.start)

theorem mapM_relocate_ok {start : Int} {handlers handlers' : List Handler}
    (h : handlers.mapM (Handler.relocate start) = .ok handlers') :
    handlers' = handlers.map (Handler.movedTo start) := by
  rw [except_mapM_ok_iff] at h
  induction h with
  | nil => rfl
  | cons hhead _ ih => rw [List.map_cons, ih, Handler.relocate_ok hhead]

/-- **One fragment in its place.** -/
theorem linkFragment_linkedAs {linked : LinkedFragment}
    (h : linkFragment f place log = .ok linked log') : f.LinkedAs place linked := by
  simp only [linkFragment, bind_ok_iff, pure_ok_iff, liftResult_ok_iff] at h
  obtain ⟨_, _, ⟨hpatches, -⟩, code, _, hcode, handlers, _, ⟨hhandlers, -⟩, rfl, -⟩ := h
  obtain ⟨hlength, hcode⟩ := linkCode_ok hcode
  refine ⟨hlength, fun patch hpatch => ?_, fun n i hi hnot => ?_, rfl, mapM_relocate_ok hhandlers⟩
  · obtain ⟨hlt, -, hfind⟩ := checkPatches_ok hpatches patch hpatch
    have hi := List.getElem?_eq_getElem hlt
    obtain ⟨i', _, _, hi', hlink⟩ := hcode _ _ hi
    rw [Nat.zero_add] at hlink
    rcases linkInstruction_ok hlink with ⟨hnone, -⟩ | ⟨patch', callee, hsome, hcallee, rfl⟩
    · rw [hfind] at hnone; cases hnone
    · rw [hfind, Option.some.injEq] at hsome
      subst hsome
      exact ⟨_, callee, hi, hcallee, hi'⟩
  · obtain ⟨i', _, _, hi', hlink⟩ := hcode n i hi
    rw [Nat.zero_add] at hlink
    rcases linkInstruction_ok hlink with ⟨-, rfl⟩ | ⟨patch, _, hsome, -, -⟩
    · exact hi'
    · have hindex := List.find?_some hsome
      exact absurd (by simpa using hindex) (hnot patch (List.mem_of_find?_eq_some hsome))

/-! ## Fragments one after the other -/

/-- The number of instructions in the fragments before number `k`. -/
def codeBefore (fragments : List Fragment) (k : Nat) : Nat :=
  ((fragments.take k).map fun f => f.code.length).sum

/-- The number of call sites in the fragments before number `k`. -/
def callSitesBefore (fragments : List Fragment) (k : Nat) : Nat :=
  ((fragments.take k).map fun f => f.callSites.length).sum

/-- The places are handed out without gaps. -/
theorem getElem?_placeFrom {frameId address : Int} {fragments : List Fragment} {k : Nat} {f : Fragment}
    (hk : fragments[k]? = some f) : (placeFrom frameId address fragments)[k]? =
      some ⟨f.name, frameId + k, address + codeBefore fragments k, f.code.length⟩ := by
  induction fragments generalizing frameId address k with
  | nil => simp at hk
  | cons g rest ih =>
    cases k with
    | zero =>
      cases hk
      simp [placeFrom, codeBefore]
    | succ k =>
      have hrest := @ih (frameId + 1) (address + g.code.length) k hk
      have hid : frameId + 1 + k = frameId + (k + 1 : Nat) := by omega
      have haddress : address + g.code.length + codeBefore rest k =
          address + codeBefore (g :: rest) (k + 1) := by
        simp only [codeBefore, List.take_succ_cons, List.map_cons, List.sum_cons]
        omega
      rw [hid, haddress] at hrest
      exact hrest

theorem length_placeFrom {frameId address : Int} {fragments : List Fragment} :
    (placeFrom frameId address fragments).length = fragments.length := by
  induction fragments generalizing frameId address with
  | nil => rfl
  | cons f rest ih => rw [placeFrom, List.length_cons, ih, List.length_cons]

/-- A call goes to the last function of its name. -/
theorem placementOf?_ok {symbols : List Symbol} {name : String} {callee : Placement}
    (h : placementOf? symbols name = some callee) :
    ∃ (j : Nat) (symbol : Symbol), symbols[j]? = some symbol ∧ symbol.name = name ∧
      callee = symbol.placement ∧
      ∀ (j' : Nat) (symbol' : Symbol), j < j' → symbols[j']? = some symbol' → symbol'.name ≠ name := by
  simp only [placementOf?, Option.map_eq_some_iff, List.find?_eq_some_iff_append] at h
  obtain ⟨symbol, ⟨hname, after, before, hsplit, hafter⟩, rfl⟩ := h
  have hsymbols : symbols = before.reverse ++ symbol :: after.reverse := by
    rw [← List.reverse_reverse symbols, hsplit]
    simp
  refine ⟨before.length, symbol, ?_, by simpa using hname, rfl, fun j' symbol' hj hsymbol' => ?_⟩
  · simp [hsymbols]
  · -- what lies behind it was looked at before it
    rw [hsymbols, List.getElem?_append_right (by simp; omega)] at hsymbol'
    obtain ⟨n, hn⟩ := Nat.exists_eq_add_of_lt hj
    rw [List.length_reverse, hn, show before.length + n + 1 - before.length = n + 1 by omega,
      List.getElem?_cons_succ] at hsymbol'
    have hmem := List.mem_reverse.mp (List.mem_of_getElem? hsymbol')
    simpa using hafter symbol' hmem

/-- **Fragments in their places:** each lies where its symbol says, and its call sites are numbered from
where those of the fragments before it end. -/
theorem linkFragments_linkedAs {callee? : String → Option Placement} {base : Int}
    {fragments : List Fragment} {symbols : List Symbol} {linked : List LinkedFragment}
    (h : linkFragments callee? base (fragments.zip symbols) log = .ok linked log')
    (hlength : symbols.length = fragments.length) :
    linked.length = fragments.length ∧
    ∀ (k : Nat) (f : Fragment) (symbol : Symbol), fragments[k]? = some f →
      symbols[k]? = some symbol → ∃ l, linked[k]? = some l ∧
      f.LinkedAs ⟨symbol.address, base + callSitesBefore fragments k, callee?⟩ l := by
  induction fragments generalizing symbols linked base log with
  | nil =>
    simp only [List.zip_nil_left, linkFragments, pure_ok_iff] at h
    obtain ⟨rfl, -⟩ := h
    exact ⟨rfl, by simp⟩
  | cons f rest ih =>
    obtain ⟨symbol, symbols, rfl⟩ := List.exists_cons_of_length_eq_add_one hlength
    simp only [List.zip_cons_cons, linkFragments, bind_ok_iff, pure_ok_iff] at h
    obtain ⟨l, log₁, hl, ls, _, hls, rfl, rfl⟩ := h
    obtain ⟨hlength', hrest⟩ := ih hls (by simpa using hlength)
    refine ⟨by rw [List.length_cons, hlength', List.length_cons], fun k g symbol' hg hsymbol => ?_⟩
    cases k with
    | zero =>
      cases hg
      cases hsymbol
      have hfirst := linkFragment_linkedAs hl
      refine ⟨l, rfl, ?_⟩
      simpa [callSitesBefore] using hfirst
    | succ k =>
      obtain ⟨l', hl', hlinked⟩ := hrest k g symbol' hg hsymbol
      have hbase : base + f.callSites.length + callSitesBefore rest k =
          base + callSitesBefore (f :: rest) (k + 1) := by
        simp only [callSitesBefore, List.take_succ_cons, List.map_cons, List.sum_cons]
        omega
      rw [hbase] at hlinked
      exact ⟨l', hl', hlinked⟩

end DisBackend
