import DisBackend.Proofs.Collector.Site

/-!
# `Proofs.Collector.Makers` — where frames and objects are made

Which descriptor holds for a word behind a pointer depends on the instruction that made what the pointer
leads to. The frame of a call lies in a word of its own, which only the lines of that call name; an
object lies in the word of the value that `new` defines, which no other instruction defines.

## Contents

* `pointers?_moveOpcode`, `pointers?_mathInstruction`, `pointers?_compareOpcode` — operations by type;
* `CallLine`, `LineKind`, `Emits.kind` — what the lines of an instruction are;
* `Site.origin` — the instruction that a piece of code was written for;
* `Trace.objects`, `Trace.frame_unique` — what lowering knows of objects, and the words of call frames;
* `Made`, `Site.made` — what made a frame or an object;
* `Site.marksField`, `Site.marksArgument` — the words of objects and call frames.
-/

namespace DisBackend

open Ssa (BlockId Function Instr Ty ValueId)

/-! ## Operations by type -/

theorem pointers?_moveOpcode (ty : Ty) : (moveOpcode ty).pointers? = some ty.isPointer := by
  cases ty <;> rfl

theorem pointers?_mathOpcode {op : Ssa.MathOp} {ty : Ty} {opcode : Opcode}
    (h : mathOpcode? op ty = some opcode) : opcode.pointers? = some ty.isPointer := by
  cases ty with
  | int => cases h; cases op <;> rfl
  | real => cases op <;> cases h <;> rfl
  | string =>
    have hadd : (if op = .add then some Opcode.addc else none) = some opcode := h
    split at hadd
    · cases hadd; rfl
    · cases hadd
  | bool | object => cases h

theorem pointers?_compareOpcode {op : Ssa.Comparison} {ty : Ty} {opcode : Opcode}
    (h : compareOpcode? op ty = some opcode) :
    opcode.pointers? = some ty.isPointer ∧ opcode.isBranch = true := by
  cases ty with
  | int | bool | real | string => cases h; cases op <;> exact ⟨rfl, rfl⟩
  | object => cases h

theorem pointers?_mathInstruction {op : Ssa.MathOp} {opcode : Opcode} {lhs rhs dst : Slot}
    (h : mathOpcode? op lhs.ty = some opcode) :
    (mathInstruction op opcode lhs rhs dst).opcode.pointers? = some lhs.ty.isPointer := by
  rw [← pointers?_mathOpcode h]
  unfold mathInstruction
  split <;> rfl

/-! ## Kinds of lines -/

/-- Line number `r` of the call `j`, the frame of which lies at `base`: the frame is made, is told where
the result goes, and is called. -/
inductive CallLine (base : Int) : Instr → Nat → Instruction → Prop where
  | frame {j : Instr} {id : Int} : CallLine base j 0 (.binary .frame (.imm id) (.fp base))
  | systemFrame {dst : Option ValueId} {name : String} {arguments : List ValueId} {handle index : Int} :
      CallLine base (.callNative dst name arguments) 0
        (.ternary .mframe (.mp handle) (.imm index) (.fp base))
  | result {j : Instr} {r : Nat} {result : Int} :
      CallLine base j (r + 1) (.binary .lea (.fp result) (.fpIndirect base returnSlot))
  | call {dst : Option ValueId} {callee : String} {arguments : List ValueId} {r : Nat} {target : Int} :
      CallLine base (.call dst callee arguments) (r + 1) (.binary .call (.fp base) (.imm target))
  | systemCall {dst : Option ValueId} {name : String} {arguments : List ValueId} {r : Nat}
      {index handle : Int} :
      CallLine base (.callNative dst name arguments) (r + 1)
        (.ternary .mcall (.fp base) (.imm index) (.mp handle))

/-- What line number `r` of the instruction `j` can be: one that copies, computes, compares or goes
elsewhere, one that makes an object, or one of a call, for which the frame gets a new word. -/
inductive LineKind (s s' : State) (j : Instr) (r : Nat) (i : Instruction) : Prop where
  | ordinary (h : (∃ pointer, i.opcode.pointers? = some pointer) ∨ i.opcode = .jmp ∨ i.opcode = .ret)
  | object {dst : ValueId} {fields : List Ty} (made : j = .new dst fields) (alone : r = 0)
      (opcode : i.opcode = .new)
  | call (line : CallLine s.frame.size j r i) (grown : s.frame.words.length < s'.frame.words.length)

/-- A frame that got a word is longer. -/
theorem length_lt_of_pushed {s t s' : State} (h : t.Grows s') {pointer : Bool}
    (hwords : t.frame.words = s.frame.words ++ [pointer]) :
    s.frame.words.length < s'.frame.words.length := by
  have hle := h.frame.length_le
  rw [hwords, List.length_append] at hle
  exact hle

section Kinds

variable {s s' : State} {j : Instr} {r : Nat}

theorem kind_moveLine (ty : Ty) (src dst : Operand) :
    LineKind s s' j r (moveLine ty src dst).instruction ∧ (moveLine ty src dst).Waits :=
  ⟨.ordinary (.inl ⟨_, pointers?_moveOpcode ty⟩), trivial⟩

theorem kind_jumpLine (target : BlockId) :
    LineKind s s' j r (jumpLine target).instruction ∧ (jumpLine target).Waits :=
  ⟨.ordinary (.inr (.inl rfl)), 0, rfl⟩

theorem kind_directLines {moves : List Move} {line : Line} (h : line ∈ directLines moves) :
    LineKind s s' j r line.instruction ∧ line.Waits := by
  obtain ⟨m, -, rfl⟩ := List.mem_map.mp h
  exact kind_moveLine _ _ _

theorem Moved.kind {moves : List Move} {t t' : State} {lines : List Line} (h : Moved moves t lines t')
    {line : Line} (hline : line ∈ lines) : LineKind s s' j r line.instruction ∧ line.Waits := by
  cases h with
  | direct => exact kind_directLines hline
  | through =>
    rcases List.mem_append.mp hline with h | h
    · exact kind_directLines h
    · exact kind_directLines h

theorem kind_argumentLines {callFrame : Int} {slots : List Slot} {line : Line}
    (h : line ∈ argumentLines callFrame slots) : LineKind s s' j r line.instruction ∧ line.Waits := by
  obtain ⟨k, hk, rfl⟩ := List.mem_mapIdx.mp h
  exact kind_moveLine _ _ _

theorem CallResult.kind {env : Env} {t t' : State} {result : Option Ty} {dst : Option ValueId}
    {lines : List Line} (h : CallResult env s.frame.size t result dst lines t')
    (hgrown : s.frame.words.length < s'.frame.words.length) {line : Line} (hline : line ∈ lines) :
    LineKind s s' j (r + 1) line.instruction ∧ line.Waits := by
  cases h with
  | none => cases hline
  | kept | dropped =>
    obtain rfl := List.mem_singleton.mp hline
    exact ⟨.call .result hgrown, trivial⟩

/-! One lemma for each kind of instruction that has more than one line. -/

section Lines

variable {env : Env} {source : BlockId} {lines : List Line} {line : Line}

theorem kind_compare {dst lhs rhs : ValueId} {op : Ssa.Comparison}
    (h : Emits env source s (.compare dst op lhs rhs) lines s') (hline : line ∈ lines) :
    LineKind s s' (.compare dst op lhs rhs) r line.instruction ∧ line.Waits := by
  cases h with
  | compare _ _ _ _ hopcode =>
    simp only [List.mem_cons, List.not_mem_nil, or_false] at hline
    rcases hline with rfl | rfl | rfl
    · exact kind_moveLine _ _ _
    · exact ⟨.ordinary (.inl ⟨_, (pointers?_compareOpcode hopcode).1⟩), 0, rfl⟩
    · exact kind_moveLine _ _ _

theorem kind_call {dst : Option ValueId} {callee : String} {arguments : List ValueId}
    (h : Emits env source s (.call dst callee arguments) lines s') (hr : lines[r]? = some line) :
    LineKind s s' (.call dst callee arguments) r line.instruction ∧ line.Waits := by
  cases h with
  | call _ _ _ _ _ hresult =>
    have hgrown := length_lt_of_pushed hresult.grows rfl
    cases r with
    | zero =>
      cases hr
      exact ⟨.call .frame hgrown, 0, rfl⟩
    | succ r =>
      have hrest := List.mem_of_getElem? (List.getElem?_cons_succ ▸ hr)
      rcases List.mem_append.mp hrest with hrest | hcall
      · rcases List.mem_append.mp hrest with hargument | hresultLine
        · exact kind_argumentLines hargument
        · exact hresult.kind hgrown hresultLine
      · obtain rfl := List.mem_singleton.mp hcall
        exact ⟨.call .call hgrown, 0, rfl⟩

theorem kind_callNative {dst : Option ValueId} {name : String} {arguments : List ValueId}
    (h : Emits env source s (.callNative dst name arguments) lines s') (hr : lines[r]? = some line) :
    LineKind s s' (.callNative dst name arguments) r line.instruction ∧ line.Waits := by
  cases h with
  | callNative _ _ _ hframe hresult =>
    have hgrown := length_lt_of_pushed (hframe.grows.trans hresult.grows) rfl
    cases r with
    | zero =>
      cases hr
      cases hframe with
      | variadic => exact ⟨.call .frame hgrown, trivial⟩
      | fixed => exact ⟨.call .systemFrame hgrown, trivial⟩
    | succ r =>
      have hrest := List.mem_of_getElem? (List.getElem?_cons_succ ▸ hr)
      rcases List.mem_append.mp hrest with hargument | hcall
      · exact kind_argumentLines hargument
      · simp only [List.mem_cons, List.not_mem_nil, or_false] at hcall
        rcases hcall with rfl | rfl
        · exact ⟨.call .result hgrown, trivial⟩
        · exact ⟨.call .systemCall hgrown, trivial⟩

theorem kind_jump {target : BlockId} (h : Emits env source s (.jump target) lines s')
    (hline : line ∈ lines) : LineKind s s' (.jump target) r line.instruction ∧ line.Waits := by
  cases h with
  | jump _ _ hmoved =>
    rcases List.mem_append.mp hline with hmove | hjump
    · exact hmoved.kind hmove
    · obtain rfl := List.mem_singleton.mp hjump
      exact kind_jumpLine _

theorem kind_branch {condition : ValueId} {thenBlock elseBlock : BlockId}
    (h : Emits env source s (.branch condition thenBlock elseBlock) lines s') (hline : line ∈ lines) :
    LineKind s s' (.branch condition thenBlock elseBlock) r line.instruction ∧ line.Waits := by
  cases h with
  | branchPlain =>
    simp only [List.mem_cons, List.not_mem_nil, or_false] at hline
    rcases hline with rfl | rfl
    · exact ⟨.ordinary (.inl ⟨false, rfl⟩), 0, rfl⟩
    · exact kind_jumpLine _
  | branchMoving _ _ _ _ _ _ helse hthen =>
    simp only [List.mem_append, List.mem_cons, List.not_mem_nil, or_false] at hline
    rcases hline with (((rfl | hline) | rfl) | hline) | rfl
    · exact ⟨.ordinary (.inl ⟨false, rfl⟩), 0, rfl⟩
    · exact helse.kind hline
    · exact kind_jumpLine _
    · exact hthen.kind hline
    · exact kind_jumpLine _

theorem kind_ret {value : Option ValueId} (h : Emits env source s (.ret value) lines s')
    (hline : line ∈ lines) : LineKind s s' (.ret value) r line.instruction ∧ line.Waits := by
  cases h with
  | retValue =>
    simp only [List.mem_cons, List.not_mem_nil, or_false] at hline
    rcases hline with rfl | rfl
    · exact kind_moveLine _ _ _
    · exact ⟨.ordinary (.inr (.inr rfl)), trivial⟩
  | retNone =>
    obtain rfl := List.mem_singleton.mp hline
    exact ⟨.ordinary (.inr (.inr rfl)), trivial⟩

end Lines

/-- **What the lines of an instruction are.** -/
theorem Emits.kind {env : Env} {source : BlockId} {lines : List Line}
    (h : Emits env source s j lines s') {line : Line} (hr : lines[r]? = some line) :
    LineKind s s' j r line.instruction ∧ line.Waits := by
  have hline := List.mem_of_getElem? hr
  have hemits := h
  cases h with
  | constNear | constBool | constCell | loadGlobal | storeGlobal | loadField | storeField =>
    obtain rfl := List.mem_singleton.mp hline
    exact kind_moveLine _ _ _
  | math _ _ _ _ hopcode =>
    obtain rfl := List.mem_singleton.mp hline
    exact ⟨.ordinary (.inl ⟨_, pointers?_mathInstruction hopcode⟩), trivial⟩
  | new =>
    cases r with
    | zero =>
      cases hr
      exact ⟨.object rfl rfl rfl, trivial⟩
    | succ r => cases hr
  | phi => cases hline
  | compare => exact kind_compare hemits hline
  | call => exact kind_call hemits hr
  | callNative => exact kind_callNative hemits hr
  | jump => exact kind_jump hemits hline
  | branchPlain | branchMoving => exact kind_branch hemits hline
  | retValue | retNone => exact kind_ret hemits hline

end Kinds

/-! ## From code to instructions -/

/-- Numbers do not matter for what a line is. -/
theorem CallLine.congr {base : Int} {j : Instr} {r : Nat} {i i' : Instruction} (h : CallLine base j r i)
    (hs : i.Similar i') : CallLine base j r i' := by
  obtain ⟨hopcode, hsrc, hmid, hdst⟩ := hs
  have hsame {o o' : Operand} (ho : o.Similar o') (hnumber : ∀ v, o ≠ .imm v) : o' = o := by
    rcases ho with rfl | ⟨v, -, rfl, -⟩
    · rfl
    · exact absurd rfl (hnumber v)
  have hnumber {o : Operand} {v : Int} (ho : Operand.Similar (.imm v) o) : ∃ w, o = .imm w := by
    rcases ho with rfl | ⟨-, w, -, rfl⟩
    · exact ⟨v, rfl⟩
    · exact ⟨w, rfl⟩
  cases i' with
  | mk opcode src mid dst =>
    cases h with
    | frame =>
      obtain ⟨v, rfl⟩ := hnumber hsrc
      obtain ⟨rfl, rfl, rfl⟩ := And.intro hopcode (And.intro (hsame hmid nofun) (hsame hdst nofun))
      exact .frame
    | systemFrame =>
      obtain ⟨v, rfl⟩ := hnumber hmid
      obtain ⟨rfl, rfl, rfl⟩ := And.intro hopcode (And.intro (hsame hsrc nofun) (hsame hdst nofun))
      exact .systemFrame
    | result =>
      obtain ⟨rfl, rfl, rfl, rfl⟩ := And.intro hopcode
        (And.intro (hsame hsrc nofun) (And.intro (hsame hmid nofun) (hsame hdst nofun)))
      exact .result
    | call =>
      obtain ⟨v, rfl⟩ := hnumber hdst
      obtain ⟨rfl, rfl, rfl⟩ := And.intro hopcode (And.intro (hsame hsrc nofun) (hsame hmid nofun))
      exact .call
    | systemCall =>
      obtain ⟨v, rfl⟩ := hnumber hmid
      obtain ⟨rfl, rfl, rfl⟩ := And.intro hopcode (And.intro (hsame hsrc nofun) (hsame hdst nofun))
      exact .systemCall

theorem LineKind.congr {s s' : State} {j : Instr} {r : Nat} {i i' : Instruction}
    (h : LineKind s s' j r i) (hs : i.Similar i') : LineKind s s' j r i' := by
  cases h with
  | ordinary h => exact .ordinary (by rw [hs.opcode]; exact h)
  | object made alone opcode => exact .object made alone (hs.opcode.trans opcode)
  | call line grown => exact .call (line.congr hs) grown

/-- Frames are made, and system functions called, by the lines of calls only. -/
theorem LineKind.callLine {s s' : State} {j : Instr} {r : Nat} {i : Instruction}
    (h : LineKind s s' j r i) (hopcode : i.opcode = .frame ∨ i.opcode = .mframe ∨ i.opcode = .mcall) :
    CallLine s.frame.size j r i ∧ s.frame.words.length < s'.frame.words.length := by
  cases h with
  | ordinary hother =>
    rcases hopcode with h | h | h <;> rw [h] at hother <;> rcases hother with ⟨_, h⟩ | h | h <;> cases h
  | object _ _ hnew => rcases hopcode with h | h | h <;> rw [h] at hnew <;> cases hnew
  | call line grown => exact ⟨line, grown⟩

/-! ## What lowering knows -/

theorem Moved.objects {moves : List Move} {s s' : State} {lines : List Line}
    (h : Moved moves s lines s') : s'.objects = s.objects := by
  cases h <;> rfl

theorem CallResult.objects {env : Env} {callFrame : Int} {s s' : State} {result : Option Ty}
    {dst : Option ValueId} {lines : List Line} (h : CallResult env callFrame s result dst lines s') :
    s'.objects = s.objects := by
  cases h <;> rfl

theorem NativeFrame.objects {native : SysFunction} {index : Nat} {slots : List Slot} {callFrame : Int}
    {s s' : State} {line : Line} (h : NativeFrame native index slots callFrame s line s') :
    s'.objects = s.objects := by
  cases h <;> rfl

theorem NativeResult.objects {env : Env} {native : SysFunction} {s s' : State} {dst : Option ValueId}
    {offset : Int} (h : NativeResult env native s dst offset s') : s'.objects = s.objects := by
  cases h <;> rfl

/-- An object is known from the instruction on that makes it. -/
theorem Emits.objects {env : Env} {source : BlockId} {s s' : State} {j : Instr} {lines : List Line}
    (h : Emits env source s j lines s') :
    (∃ dst fields, j = .new dst fields ∧ s'.objects = (dst, fields) :: s.objects) ∨
      ((∀ dst fields, j ≠ .new dst fields) ∧ s'.objects = s.objects) := by
  cases h with
  | new => exact .inl ⟨_, _, rfl, rfl⟩
  | call _ _ _ _ _ hresult => exact .inr ⟨nofun, hresult.objects⟩
  | callNative _ _ _ hframe hresult => exact .inr ⟨nofun, hresult.objects.trans hframe.objects⟩
  | jump _ _ hmoved => exact .inr ⟨nofun, hmoved.objects⟩
  | branchMoving _ _ _ _ _ _ helse hthen => exact .inr ⟨nofun, hthen.objects.trans helse.objects⟩
  | _ => exact .inr ⟨nofun, rfl⟩

namespace Lowering.Trace

variable {f : Function} {c c' : Context} {fragment : Fragment} {L : Lowering f c fragment c'}
  (T : L.Trace)

/-- **The fields of all objects made so far are known.** -/
theorem objects {q q' : Nat} (h : q' < q) (hq : q ≤ f.numbered.length) {b : Ssa.Block × Nat}
    {dst : ValueId} {fields : List Ty} (hnew : f.numbered[q']? = some (b, .new dst fields)) :
    (T.state q).objects.lookup dst = some fields := by
  induction q with
  | zero => omega
  | succ q ih =>
    have hj : f.numbered[q]? = some (f.numbered[q].1, f.numbered[q].2) := List.getElem?_eq_getElem hq
    have hpiece := List.getElem?_eq_getElem (L.length_numbered ▸ hq)
    rcases (T.emits q _ _ _ hj hpiece).objects with ⟨dst', fields', he, hobjects⟩ | ⟨hother, hobjects⟩
    · rw [he] at hj
      rw [hobjects, List.lookup_cons]
      by_cases hsame : dst = dst'
      · -- no value is defined twice, so this is the instruction that made the object
        subst hsame
        have hunique := L.wellTyped.destination_unique (Ssa.Function.mem_of_numbered hnew)
          (Ssa.Function.mem_of_numbered hj) (v := dst) rfl rfl
        cases hunique
        rw [beq_self_eq_true]
      · rw [beq_eq_false_iff_ne.mpr hsame]
        have hne : q' ≠ q := by
          rintro rfl
          rw [hnew] at hj
          cases hj
          exact hsame rfl
        exact ih (by omega) (by omega)
    · rw [hobjects]
      have hne : q' ≠ q := by
        rintro rfl
        rw [hnew] at hj
        exact hother dst fields (congrArg Prod.snd (Option.some.inj hj)).symm
      exact ih (by omega) (by omega)

theorem grown_of_lt {q q' : Nat} (h : q < q') (hq' : q' ≤ f.numbered.length)
    (hgrown : (T.state q).frame.words.length < (T.state (q + 1)).frame.words.length) :
    (T.state q).frame.words.length < (T.state q').frame.words.length :=
  Nat.lt_of_lt_of_le hgrown (T.grows h hq').frame.length_le

/-- **A call has a word of its own for its frame.** -/
theorem frame_unique {q q' : Nat} (hq : q < f.numbered.length) (hq' : q' < f.numbered.length)
    (hgrown : (T.state q).frame.words.length < (T.state (q + 1)).frame.words.length)
    (hgrown' : (T.state q').frame.words.length < (T.state (q' + 1)).frame.words.length)
    (h : (T.state q).frame.size = (T.state q').frame.size) : q = q' := by
  have hlength : (T.state q).frame.words.length = (T.state q').frame.words.length :=
    wordOffset_injective h
  rcases Nat.lt_trichotomy q q' with hlt | heq | hgt
  · have := T.grown_of_lt hlt (Nat.le_of_lt hq') hgrown
    omega
  · exact heq
  · have := T.grown_of_lt hgt (Nat.le_of_lt hq) hgrown'
    omega

/-- The frame of a call is not where a value is. -/
theorem slot_ne_frame {q : Nat} (hq : q ≤ f.numbered.length) {v : ValueId} {slot : Slot}
    (h : L.slots.lookup v = some slot) : slot.offset ≠ (T.state q).frame.size := by
  obtain ⟨k, hk, hoffset⟩ := L.slot_frameWord h
  have hle := (T.grows (Nat.zero_le q) hq).frame.length_le
  rw [T.first] at hle
  intro heq
  have hlength : k = (T.state q).frame.words.length := wordOffset_injective (hoffset.symm.trans heq)
  have hfirst : L.first.frame.words.length = L.frame.words.length := rfl
  omega

end Lowering.Trace

/-! ## Makers -/

/-- Instruction number `n` of the code was written for instruction number `q` of the function, as line
number `r`. -/
structure Origin {f : Function} {c c' : Context} {fragment : Fragment} {L : Lowering f c fragment c'}
    (T : L.Trace) (n q r : Nat) (j : Instr) (lines : List Line) (i : Instruction) : Prop where
  instr : ∃ b, f.numbered[q]? = some (b, j)
  piece : L.pieces.flatten[q]? = some lines
  line : ∃ line, lines[r]? = some line ∧ line.instruction.Similar i
  number : n = L.pieceStart q + r
  kind : LineKind (T.state q) (T.state (q + 1)) j r i

section Makers

variable {f : Function} {c c' : Context} {fragment : Fragment} {L : Lowering f c fragment c'}
  {T : L.Trace} {S : Scope}

theorem Site.origin (site : Site L S) (T : L.Trace) {n : Nat} {i : Instruction}
    (hi : S.code[n]? = some i) : ∃ q r j lines, Origin T n q r j lines i := by
  obtain ⟨line, hline⟩ := site.line_of_code hi
  obtain ⟨q, r, b, j, lines, hq, hlines, hr, hn⟩ := L.piece_of_line hline
  obtain ⟨hkind, hwaits⟩ := (T.emits q b j lines hq hlines).kind hr
  have hsimilar := site.similar hline hwaits hi
  exact ⟨q, r, j, lines, ⟨b, hq⟩, hlines, ⟨line, hr, hsimilar⟩, hn, hkind.congr hsimilar⟩

theorem Origin.lt {n q r : Nat} {j : Instr} {lines : List Line} {i : Instruction}
    (h : Origin T n q r j lines i) : q < f.numbered.length := by
  obtain ⟨b, hq⟩ := h.instr
  exact (List.getElem?_eq_some_iff.mp hq).1

/-- What put a pointer into the word at `base`: a `new`, and the word is that of the object it makes, or
the first line of a call, and the word is the one for its frame. -/
inductive Made (T : L.Trace) (n : Nat) (base : Int) (d : TypeDescriptor) : Prop where
  | object {q : Nat} {b : Ssa.Block × Nat} {dst : ValueId} {fields : List Ty} {slot : Slot}
      (instr : f.numbered[q]? = some (b, .new dst fields)) (dst_slot : L.slots.lookup dst = some slot)
      (base_eq : base = slot.offset) (number : n = L.pieceStart q)
      (marks : ∀ (k : Nat) (ty : Ty), fields[k]? = some ty →
        d.Covers 0 (wordOffset 0 k) ∧ d.hasPointer (wordOffset 0 k) = ty.isPointer)
  | frame {q : Nat} (lt : q < f.numbered.length)
      (grown : (T.state q).frame.words.length < (T.state (q + 1)).frame.words.length)
      (base_eq : base = (T.state q).frame.size) (number : n = L.pieceStart q)

theorem Emits.of_new {env : Env} {source : BlockId} {s s' : State} {dst : ValueId} {fields : List Ty}
    {lines : List Line} (h : Emits env source s (.new dst fields) lines s') :
    ∃ slot d, env.slots.lookup dst = some slot ∧
      describe s.callSites.length (max (fields.length * wordBytes) wordBytes) 0
        (fields.map Ty.isPointer) = .ok d ∧
      lines = [⟨.binary .new (.imm s.callSites.length) slot.operand, .settled⟩] ∧
      s'.callSites = s.callSites ++ [d] := by
  cases h with
  | @new _ _ slot d described numbered hslot => exact ⟨slot, d, hslot, described, rfl, rfl⟩

/-- **What made a frame or an object.** -/
theorem Site.made (site : Site L S) (T : L.Trace) {n : Nat} {i : Instruction} {base : Int}
    {d : TypeDescriptor} (hi : S.code[n]? = some i) (hmakes : Makes S.module i base d) :
    Made T n base d := by
  obtain ⟨q, r, j, lines, horigin⟩ := site.origin T hi
  cases hmakes with
  | object hd =>
    cases horigin.kind with
    | ordinary hordinary => rcases hordinary with ⟨_, h⟩ | h | h <;> cases h
    | call line _ => cases line
    | @object dst fields hj hr _ =>
      subst hj hr
      obtain ⟨b, hq⟩ := horigin.instr
      have hnumber := horigin.number
      rw [Nat.add_zero] at hnumber
      obtain ⟨slot, d₀, hslot, hd₀, rfl, hsites⟩ := (T.emits q b _ lines hq horigin.piece).of_new
      have hline : L.lines[L.pieceStart q + 0]? = some _ := L.line_of_piece horigin.piece rfl
      have hcode := site.code_of_settled hline rfl
      rw [Nat.add_zero, ← hnumber, hi] at hcode
      cases hcode
      refine .object hq hslot rfl hnumber fun k ty hk => ?_
      -- the descriptor is the call site that this line added, and call sites are never taken back
      have hgrows := T.grows horigin.lt (Nat.le_refl _)
      rw [T.last] at hgrows
      have hsite : (T.state (q + 1)).callSites[(T.state q).callSites.length]? = some d₀ := by
        rw [hsites]
        exact List.getElem?_concat_length
      refine site.callSite_marks hgrows hsite hd₀ zero_eq_words ?_ hd ?_
      · refine Int.le_trans ?_ (Int.le_max_left _ _)
        unfold wordOffset
        rw [List.length_map, Int.mul_comm]
        omega
      · rw [List.getElem?_map, hk]
        rfl
  | callFrame hd =>
    obtain ⟨line, grown⟩ := horigin.kind.callLine (.inl rfl)
    cases line
    exact .frame horigin.lt grown rfl horigin.number
  | systemFrame himported =>
    obtain ⟨line, grown⟩ := horigin.kind.callLine (.inr (.inl rfl))
    cases line
    exact .frame horigin.lt grown rfl horigin.number

/-! ## Words behind pointers -/

theorem Module.Imports.unique {m : Module} {index : Nat} {g g' : SysFunction} (h : m.Imports index g)
    (h' : m.Imports index g') : g = g' := by
  obtain ⟨group, i, hgroup, hi, hg⟩ := h
  obtain ⟨group', i', hgroup', hi', hg'⟩ := h'
  rw [hgroup, Option.some.injEq] at hgroup'
  subst hgroup'
  rw [hi, Option.some.injEq] at hi'
  subst hi'
  rw [hg, Option.some.injEq] at hg'
  exact hg'

theorem Makes.unique {m : Module} {i : Instruction} {base base' : Int} {d d' : TypeDescriptor}
    (h : Makes m i base d) (h' : Makes m i base' d') : d = d' := by
  cases h with
  | object hd =>
    cases h' with
    | object hd' => exact Option.some.inj (hd.symm.trans hd')
  | callFrame hd =>
    cases h' with
    | callFrame hd' => exact Option.some.inj (hd.symm.trans hd')
  | @systemFrame index _ handle native himported =>
    generalize hi : Instruction.ternary .mframe (.mp handle) (.imm index) (.fp base) = i at h'
    cases h' with
    | object | callFrame => cases hi
    | @systemFrame index' _ _ native' himported' =>
      simp only [Instruction.ternary, Instruction.mk.injEq, Operand.imm.injEq, Int.ofNat_inj] at hi
      obtain ⟨-, -, rfl, -⟩ := hi
      rw [himported.unique himported']

/-- **The fields of an object** are marked as the program declares them. -/
theorem Site.marksField (site : Site L S) {q r : Nat} {b : Ssa.Block × Nat} {j : Instr}
    {lines : List Line} (hq : f.numbered[q]? = some (b, j)) (hpiece : L.pieces.flatten[q]? = some lines)
    (hother : ∀ dst fields, j ≠ .new dst fields) (hr : r < lines.length) {object : ValueId} {field : Nat}
    {ty : Ty} {base : Slot} (haccess : FieldAccess L.env (T.state q) object field ty base) :
    S.MarksField (L.pieceStart q + r) base.offset (wordOffset 0 field) ty.isPointer := by
  intro n' i d hlt hi hmakes
  have hlast : q < f.numbered.length := (List.getElem?_eq_some_iff.mp hq).1
  cases site.made T hi hmakes with
  | frame lt _ hbase _ => exact absurd hbase (T.slot_ne_frame (Nat.le_of_lt lt) haccess.slot)
  | @object q' b' dst fields slot hnew hslot hbase hn marks =>
    have hbefore : q' < q := by
      rcases Nat.lt_trichotomy q' q with h | rfl | h
      · exact h
      · rw [hq] at hnew
        cases hnew
        exact absurd rfl (hother dst fields)
      · have := L.pieceStart_add_lt hpiece hr h
        omega
    -- values do not share slots, so the object made is the one accessed, and its fields are known here
    obtain rfl : object = dst := L.slot_injective haccess.slot hslot hbase
    have hknown := T.objects hbefore (Nat.le_of_lt hlast) hnew
    exact marks field ty (haccess.known fields hknown)

/-- **The arguments of a call** are marked by the frame that its first line makes. -/
theorem Site.marksArgument (site : Site L S) {q r : Nat} (hq : q < f.numbered.length)
    (hgrown : (T.state q).frame.words.length < (T.state (q + 1)).frame.words.length) (hr : 0 < r)
    {i : Instruction} {d : TypeDescriptor} (hi : S.code[L.pieceStart q]? = some i)
    (hmakes : Makes S.module i (T.state q).frame.size d) {offset : Int} {pointer : Bool}
    (hword : d.Covers headerBytes offset ∧ d.hasPointer offset = pointer) :
    S.MarksArgument (L.pieceStart q + r) (T.state q).frame.size offset pointer := by
  refine ⟨⟨L.pieceStart q, i, d, by omega, hi, hmakes⟩, fun n' i' d' hi' hmakes' => ?_⟩
  cases site.made T hi' hmakes' with
  | object _ hslot hbase => exact absurd hbase.symm (T.slot_ne_frame (Nat.le_of_lt hq) hslot)
  | frame lt grown hbase hn =>
    obtain rfl := T.frame_unique hq lt hgrown grown hbase
    rw [hn, hi, Option.some.injEq] at hi'
    subst hi'
    rw [← hmakes.unique hmakes']
    exact hword

end Makers

end DisBackend
