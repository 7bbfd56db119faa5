import DisBackend.Proofs.Collector.Instructions

/-!
# `Proofs.Collector.Calls` — calls agree with their descriptors

The first line of a call makes a frame, and the descriptor of that frame is the one of the callee, one of
the caller's call sites, or the one that the system function comes with. The arguments are marked by it.
What comes back is stored by the callee, so the word for it has to be marked by the callee's result.

## Contents

* `SysFunction.marks_parameter` — the words of a system function's frame;
* `Site.frame_at`, `Site.systemCall_at` — where the lines of a call are;
* `Piece.arguments_sound`, `sound_resultLine` — the lines that calls have in common;
* `Piece.call_sound`, `Piece.callNative_sound` — calls of functions and of system functions;
* `Site.sound` — all code of a function agrees with the descriptors.
-/

namespace DisBackend

open Ssa (BlockId Function Instr Ty ValueId)

/-! ## System functions -/

namespace SysFunction

variable {name : String} {native : SysFunction}

theorem frameSize_le (h : lookup? name = some native) : native.frameSize ≤ 88 := by
  have hall : ∀ g ∈ all, g.frameSize ≤ 88 := by decide
  exact hall native (List.mem_of_find?_eq_some h)

theorem toInt32_of_lt {k : Nat} (h : k < 2147483648) : toInt32 k = k :=
  Int.bmod_eq_of_le (by omega) (by omega)

/-- The frame of a system function has a word for each argument, marked as the function expects. -/
theorem marks_parameter (h : lookup? name = some native) {count k : Nat} {pointer : Bool}
    (hcount : native.parameterCount? = some count) (hk : k < count)
    (hpointer : native.parameterIsPointer k = .ok pointer) :
    (native.frameDescriptor 0).Covers headerBytes (wordOffset headerBytes k) ∧
      (native.frameDescriptor 0).hasPointer (wordOffset headerBytes k) = pointer := by
  have hle := frameSize_le h
  unfold parameterCount? at hcount
  split at hcount
  · cases hcount
  · rw [Option.some.injEq] at hcount
    have hsize : wordOffset headerBytes k < native.frameSize := by
      unfold wordOffset headerBytes wordBytes
      unfold headerBytes wordBytes at hcount
      omega
    constructor
    · refine ⟨le_wordOffset _ _, hsize, ?_⟩
      unfold wordOffset headerBytes wordBytes
      omega
    · have hsmall : k < 2147483648 := by
        unfold wordOffset headerBytes wordBytes at hsize
        omega
      simp only [parameterIsPointer, except_bind_ok_iff, checkedMul_ok_iff, checkedAdd_ok_iff,
        except_pure_ok_iff, toInt32_of_lt hsmall] at hpointer
      obtain ⟨_, ⟨-, rfl⟩, _, ⟨-, rfl⟩, rfl⟩ := hpointer
      unfold wordOffset
      rw [Int.mul_comm]

theorem returns_of_result? {ty : Ty} (h : native.result? = some ty) : native.returns = [ty] := by
  unfold result? at h
  split at h
  · next hreturns => cases h; exact hreturns
  · cases h

theorem exists_droppedWords (native : SysFunction) :
    ∃ pointer, native.droppedWords[0]? = some pointer := by
  unfold droppedWords
  cases native.returns with
  | nil => exact ⟨false, rfl⟩
  | cons ty tys => exact ⟨ty.isPointer, rfl⟩

end SysFunction

/-! ## The lines of a call -/

section Lines

variable {S : Scope} {n : Nat}

theorem sound_resultLine {result base : Int} (hresult : S.frame.Covers headerBytes result)
    (hbase : S.frame.Covers headerBytes base) (htakes : S.TakesResult result base) :
    S.Sound n (resultLine result base).instruction where
  reaches := Instruction.forall_operands hresult trivial (.inr hbase)
  marks := nofun
  object := nofun
  result _ _ h := by cases h; exact htakes

end Lines

section Places

variable {f : Function} {c c' : Context} {fragment : Fragment} {L : Lowering f c fragment c'}
  {T : L.Trace} {S : Scope} (site : Site L S) {q n : Nat} (hq : q < f.numbered.length)
  (hgrown : (T.state q).frame.words.length < (T.state (q + 1)).frame.words.length)

include site hq hgrown

/-- Only the first line of a call makes its frame. -/
theorem Site.frame_at {id : Int}
    (h : S.code[n]? = some (.binary .frame (.imm id) (.fp (T.state q).frame.size))) :
    n = L.pieceStart q := by
  obtain ⟨q', r, j, lines, horigin⟩ := site.origin T h
  obtain ⟨line, grown⟩ := horigin.kind.callLine (.inl rfl)
  generalize hbase : (T.state q').frame.size = base' at line
  generalize hi : Instruction.binary .frame (.imm id) (.fp (T.state q).frame.size) = i at line
  cases line with
  | frame =>
    cases hi
    obtain rfl := T.frame_unique horigin.lt hq grown hgrown hbase
    exact horigin.number
  | systemFrame | result | call | systemCall => cases hi

/-- The line that calls a system function is one of the call. -/
theorem Site.systemCall_at {index handle : Int} {i : Instruction}
    (hi : i = .ternary .mcall (.fp (T.state q).frame.size) (.imm index) (.mp handle))
    (h : S.code[n]? = some i) :
    ∃ r lines dst name arguments, Origin T n q r (.callNative dst name arguments) lines i := by
  obtain ⟨q', r, j, lines, horigin⟩ := site.origin T h
  obtain ⟨line, grown⟩ := horigin.kind.callLine (.inr (.inr (hi ▸ rfl)))
  generalize hbase : (T.state q').frame.size = base' at line
  cases line with
  | systemCall =>
    have hsame : base' = (T.state q).frame.size := Operand.fp.inj (congrArg Instruction.src hi)
    obtain rfl := T.frame_unique horigin.lt hq grown hgrown (hbase.trans hsame)
    exact ⟨_, lines, _, _, _, horigin⟩
  | frame | systemFrame | result | call => cases hi

end Places

/-! ## Calls of functions -/

/-- A word that was handed out last. -/
theorem Site.word_pushed {f : Function} {c c' : Context} {fragment : Fragment}
    {L : Lowering f c fragment c'} {S : Scope} (site : Site L S) {s t : State} (ht : t.Grows L.final)
    {pointer : Bool} (hwords : t.frame.words = s.frame.words ++ [pointer]) :
    S.Word s.frame.size pointer := by
  refine site.word ht ?_
  rw [hwords]
  exact List.getElem?_concat_length

namespace Piece

variable {f : Function} {c c' : Context} {fragment : Fragment} {L : Lowering f c fragment c'}
  {T : L.Trace} {q r : Nat} {j : Instr} {lines : List Line} {s s' : State} {S : Scope}
  (P : Piece T q j lines s s') (site : Site L S)
  (hgrown : s.frame.words.length < s'.frame.words.length)

include P site hgrown

/-- **The arguments** go to words of the frame that the first line makes. -/
theorem arguments_sound {i : Instruction} {d : TypeDescriptor} (hi : S.code[L.pieceStart q]? = some i)
    (hmakes : Makes S.module i s.frame.size d) (hbase : S.Word s.frame.size false)
    {arguments : List ValueId} {slots : List Slot}
    (hslots : List.Forall₂ (fun v slot => L.slots.lookup v = some slot) arguments slots)
    (hmarks : ∀ (k : Nat) (slot : Slot), slots[k]? = some slot →
      d.Covers headerBytes (wordOffset headerBytes k) ∧
        d.hasPointer (wordOffset headerBytes k) = slot.ty.isPointer)
    (hr : 0 < r) {line : Line} (hline : line ∈ argumentLines s.frame.size slots) :
    S.Sound (L.pieceStart q + r) line.instruction := by
  obtain ⟨k, hk, rfl⟩ := List.mem_mapIdx.mp hline
  have hslot := List.getElem?_eq_getElem hk
  obtain ⟨v, -, hv⟩ := forall₂_getElem? hslots.flip hslot
  obtain rfl := P.before
  obtain rfl := P.after
  exact sound_move (site.fits_slot hv)
    (fits_argument hbase (site.marksArgument P.lt hgrown hr hi hmakes (hmarks k _ hslot)))

/-- What a function returns fits the word for it, if the word is marked by the type of the result. -/
theorem call_takes {dst : Option ValueId} {callee : String} {arguments : List ValueId}
    (hj : j = .call dst callee arguments) {target : Function} {id : Int}
    (hi : S.code[L.pieceStart q]? = some (.binary .frame (.imm id) (.fp s.frame.size)))
    (hunique : ∀ symbol g, (symbol, g) ∈ S.functions → symbol.frameId = id → g = target)
    {ty : Ty} (hty : target.result = some ty) {result : Int} (hword : S.Word result ty.isPointer) :
    S.TakesResult result s.frame.size := by
  obtain rfl := P.before
  obtain rfl := P.after
  constructor
  · intro n symbol g hn hmem
    rw [site.frame_at P.lt hgrown hn, hi] at hn
    cases hn
    rw [hunique symbol g hmem rfl]
    exact ⟨ty, hty, hword.2⟩
  · intro n index handle native hn _
    -- the lines of a call of a function call no system function
    obtain ⟨_, _, _, _, _, horigin⟩ := site.systemCall_at P.lt hgrown rfl hn
    obtain ⟨b, hb⟩ := P.instr
    obtain ⟨b', hb'⟩ := horigin.instr
    rw [hb, hj] at hb'
    cases hb'

omit P site hgrown

theorem callType_eq {callee : String} {target : Function} {ty : Ty}
    (hfound : c.program.function? callee = some target) (hty : target.result = some ty) :
    callType c callee = .ok ty := by
  unfold callType
  rw [hfound]
  simp only [hty]

/-- The slot of the result of a call has the type of the callee's result. -/
theorem slot_call {dst : ValueId} {callee : String} {arguments : List ValueId}
    (hmem : Instr.call (some dst) callee arguments ∈ f.instructions) {target : Function}
    (hfound : c.program.function? callee = some target) {ty : Ty} (hty : target.result = some ty)
    {slot : Slot} (hslot : L.slots.lookup dst = some slot) : slot.ty = ty := by
  refine L.slot_result hmem ?_ hslot
  simp only [resultType, callType_eq hfound hty]
  rfl

/-- **The lines of a call are sound.** -/
theorem call_sound {dst : Option ValueId} {callee : String} {arguments : List ValueId}
    (P : Piece T q (.call dst callee arguments) lines s s') (site : Site L S) {source : BlockId}
    (h : Emits L.env source s (.call dst callee arguments) lines s') {line : Line}
    (hr : lines[r]? = some line) : S.Sound (L.pieceStart q + r) line.instruction := by
  cases h with
  | @call _ _ _ target slots result _ found defined count hslots htypes hresult =>
    have hpushed := hresult.grows.trans P.grows_last
    have hbase : S.Word s.frame.size false := site.word_pushed hpushed rfl
    have hgrown := length_lt_of_pushed hresult.grows rfl
    have hfirst : L.lines[L.pieceStart q + 0]? = some _ := P.line rfl
    obtain ⟨placement, hplacement, hcode⟩ := site.code_of_callee hfirst rfl
    have hfound : c.program.function? callee = some target := by
      rw [← found, P.grows_first.context.program]
      rfl
    obtain ⟨⟨d, hd, hmarks⟩, hunique⟩ := site.callee callee target placement hfound defined hplacement
    have htakes {ty : Ty} (hty : target.result = some ty) {offset : Int}
        (hword : S.Word offset ty.isPointer) : S.TakesResult offset s.frame.size :=
      P.call_takes site hgrown rfl hcode hunique hty hword
    -- the frame is made first; the arguments, the place for the result and the call follow
    cases r with
    | zero =>
      cases hr
      exact sound_reaching rfl nofun nofun (Instruction.forall_operands trivial trivial hbase.1)
    | succ r =>
      have hrest := List.mem_of_getElem? (List.getElem?_cons_succ ▸ hr)
      rcases List.mem_append.mp hrest with hrest | hcall
      · rcases List.mem_append.mp hrest with hargument | hline
        · refine P.arguments_sound site hgrown hcode (.callFrame hd) hbase hslots ?_ (by omega) hargument
          intro k slot hk
          -- the frame is marked by the types of the parameters, which are those of the arguments
          have hlt : k < target.parameters.length := by
            rw [count, hslots.length_eq]
            exact (List.getElem?_eq_some_iff.mp hk).1
          have hty := List.getElem?_eq_getElem hlt
          rw [← htypes k slot _ hk hty]
          exact hmarks k _ hty
        · generalize htarget : target.result = kind at hresult
          cases hresult with
          | none => cases hline
          | @kept ty v slot hslot =>
            obtain rfl := List.mem_singleton.mp hline
            have hword := site.slot hslot
            rw [slot_call P.mem hfound htarget hslot] at hword
            exact sound_resultLine hword.1 hbase.1 (htakes htarget hword)
          | @dropped ty =>
            obtain rfl := List.mem_singleton.mp hline
            have hword := site.word_pushed P.grows_last rfl
            exact sound_resultLine hword.1 hbase.1 (htakes htarget hword)
      · obtain rfl := List.mem_singleton.mp hcall
        exact sound_reaching rfl nofun nofun (Instruction.forall_operands hbase.1 trivial trivial)

end Piece

/-! ## Calls of system functions -/

section Native

variable {f : Function} {c c' : Context} {fragment : Fragment} {L : Lowering f c fragment c'}
  {S : Scope} (site : Site L S) {native : SysFunction} {index : Nat}

include site

/-- What is called is what was imported under that number. -/
theorem Site.imports {name : String} (hlookup : SysFunction.lookup? name = some native)
    {before context : Context} (himported : Context.nativeImport native before = .ok index context)
    (hgrows : context.Grows c') : S.module.Imports index native := by
  obtain ⟨g, hg, hname⟩ := Context.nativeImport_ok himported
  obtain ⟨group, hgroup, hi⟩ := site.native index g ( getElem?_of_prefix hgrows.natives hg)
  refine ⟨group, g.toImport, hgroup, hi, ?_⟩
  show SysFunction.lookup? g.name = some native
  rw [hname]
  exact SysFunction.lookup?_name hlookup

/-- **The frame of a system function**, whether it is made from a call site or comes with the function,
has a word for each argument. It is not the frame of a function of the module. -/
theorem Site.nativeFrame_makes {name : String} (hlookup : SysFunction.lookup? name = some native)
    (himports : S.module.Imports index native) {slots : List Slot} {base : Int} {s t : State}
    {frame : Line} (h : NativeFrame native index slots base s frame t) (ht : t.Grows L.final) {n : Nat}
    (hn : L.lines[n]? = some frame) :
    ∃ i d, S.code[n]? = some i ∧ Makes S.module i base d ∧
      (∀ (k : Nat) (slot : Slot), slots[k]? = some slot →
        d.Covers headerBytes (wordOffset headerBytes k) ∧
          d.hasPointer (wordOffset headerBytes k) = slot.ty.isPointer) ∧
      ∀ symbol g, (symbol, g) ∈ S.functions → i ≠ .binary .frame (.imm symbol.frameId) (.fp base) := by
  cases h with
  | @variadic d _ hd _ =>
    have hsite : (s.callSites ++ [d])[s.callSites.length]? = some d := List.getElem?_concat_length
    have hfragment : fragment.callSites[s.callSites.length]? = some d := by
      rw [L.fragment_callSites]
      exact getElem?_of_prefix ht.callSites hsite
    obtain ⟨d', hd', -⟩ := site.callSite _ d hfragment
    refine ⟨_, d', site.code_of_settled hn rfl, .callFrame hd', fun k slot hk => ?_, ?_⟩
    · refine site.callSite_marks ht hsite hd headerBytes_eq ?_ hd' ?_
      · exact Int.le_of_eq (by rw [List.length_map])
      · rw [List.getElem?_map, hk]
        rfl
    · intro symbol g hmem he
      -- call sites are numbered after the frames of functions
      have hlt := site.frames_first symbol g hmem
      have hid : (s.callSites.length : Int) + site.place.callSiteBase = symbol.frameId :=
        Operand.imm.inj (congrArg Instruction.src he)
      omega
  | fixed hcount hpointers =>
    refine ⟨_, _, site.code_of_settled hn rfl, .systemFrame himports, fun k slot hk => ?_, nofun⟩
    exact SysFunction.marks_parameter hlookup hcount (List.getElem?_eq_some_iff.mp hk).1
      (hpointers k slot hk)

end Native

namespace Piece

variable {f : Function} {c c' : Context} {fragment : Fragment} {L : Lowering f c fragment c'}
  {T : L.Trace} {q r : Nat} {lines : List Line} {s s' : State} {S : Scope} {dst : Option ValueId}
  {name : String} {arguments : List ValueId} {native : SysFunction}
  (P : Piece T q (.callNative dst name arguments) lines s s') (site : Site L S)

include P

/-- A destination of a system function has the type of the only value that the function returns. -/
theorem returns_of_slot {v : ValueId} (hdst : dst = some v)
    (hlookup : SysFunction.lookup? name = some native) (single : native.result?.isSome) {slot : Slot}
    (hslot : L.slots.lookup v = some slot) : native.returns = [slot.ty] := by
  obtain ⟨ty, hty⟩ := Option.isSome_iff_exists.mp single
  subst hdst
  have htype : resultType c (.callNative (some v) name arguments) = .ok (some (v, ty)) := by
    simp only [resultType, nativeCallType, hlookup, hty]
    rfl
  rw [L.slot_result P.mem htype hslot]
  exact SysFunction.returns_of_result? hty

include site

/-- The words for what a system function returns are marked by the types of what it returns. -/
theorem nativeResult_words (hlookup : SysFunction.lookup? name = some native) {t : State} {result : Int}
    (h : NativeResult L.env native t dst result s') :
    S.frame.Covers headerBytes result ∧ ∀ (k : Nat) (ty : Ty), native.returns[k]? = some ty →
      S.Word (wordOffset result k) ty.isPointer := by
  cases h with
  | @kept v slot single hslot =>
    have hword := site.slot hslot
    refine ⟨hword.1, fun k ty' hk => ?_⟩
    rw [P.returns_of_slot rfl hlookup single hslot] at hk
    cases k with
    | zero =>
      cases hk
      rw [wordOffset_zero]
      exact hword
    | succ k => cases hk
  | dropped =>
    have hword {k : Nat} {pointer : Bool} (hk : native.droppedWords[k]? = some pointer) :
        S.Word (wordOffset t.frame.size k) pointer := by
      have hoffset : wordOffset t.frame.size k = wordOffset headerBytes (t.frame.words.length + k) := by
        unfold Frame.size wordOffset wordBytes
        omega
      rw [hoffset]
      refine site.word P.grows_last ?_
      show (t.frame.words ++ SysFunction.droppedWords native)[t.frame.words.length + k]? = _
      rw [List.getElem?_append_right (by omega), Nat.add_sub_cancel_left]
      exact hk
    constructor
    · obtain ⟨pointer, hfirst⟩ := native.exists_droppedWords
      have hcovers := (hword hfirst).1
      rw [wordOffset_zero] at hcovers
      exact hcovers
    · intro k ty hk
      apply hword
      unfold SysFunction.droppedWords
      rw [if_neg (List.ne_nil_of_mem (List.mem_of_getElem? hk)), List.getElem?_map, hk]
      rfl

omit P site in
/-- Of the lines of a call, only the last calls a system function. -/
theorem eq_of_opcode_mcall {index : Nat} {slots : List Slot} {base result : Int} {t t' : State}
    {frame call line : Line} (hframe : NativeFrame native index slots base t frame t')
    (hline : line ∈ frame :: argumentLines base slots ++ [resultLine result base, call])
    (hopcode : line.instruction.opcode = .mcall) : line = call := by
  simp only [List.mem_append, List.mem_cons, List.not_mem_nil, or_false] at hline
  rcases hline with (rfl | hargument) | rfl | rfl
  · cases hframe <;> cases hopcode
  · obtain ⟨k, hk, rfl⟩ := List.mem_mapIdx.mp hargument
    have hpointers := pointers?_moveOpcode slots[k].ty
    rw [show moveOpcode slots[k].ty = .mcall from hopcode] at hpointers
    cases hpointers
  · cases hopcode
  · rfl

/-- What a system function returns fits the words for it. -/
theorem native_takes (hgrown : s.frame.words.length < s'.frame.words.length) {index : Nat}
    (himports : S.module.Imports index native) {slots : List Slot} {result : Int} {t t' : State}
    {frame : Line} (hframe : NativeFrame native index slots s.frame.size t frame t')
    (hlines : lines = frame :: argumentLines s.frame.size slots ++ [resultLine result s.frame.size,
      ⟨.ternary .mcall (.fp s.frame.size) (.imm index) (.mp sysOffset), .settled⟩])
    {i : Instruction} (hi : S.code[L.pieceStart q]? = some i)
    (hother : ∀ symbol g, (symbol, g) ∈ S.functions →
      i ≠ .binary .frame (.imm symbol.frameId) (.fp s.frame.size))
    (hwords : ∀ (k : Nat) (ty : Ty), native.returns[k]? = some ty →
      S.Word (wordOffset result k) ty.isPointer) : S.TakesResult result s.frame.size := by
  obtain rfl := P.before
  obtain rfl := P.after
  constructor
  · intro n symbol g hn hmem
    -- the frame can only be made by the first line, and that makes the frame of a system function
    rw [site.frame_at P.lt hgrown hn, hi, Option.some.injEq] at hn
    exact absurd hn (hother symbol g hmem)
  · intro n index' handle native' hn himports'
    obtain ⟨r', lines', _, _, _, horigin⟩ := site.systemCall_at P.lt hgrown rfl hn
    obtain rfl : lines' = lines := Option.some.inj (horigin.piece.symm.trans P.piece)
    obtain ⟨line, hline, hsimilar⟩ := horigin.line
    -- the instruction is the last line of this call, so it calls the function that was imported
    have hlast := eq_of_opcode_mcall hframe (hlines ▸ List.mem_of_getElem? hline) hsimilar.opcode.symm
    subst hlast
    have hcode := site.code_of_settled (P.line hline) rfl
    rw [← horigin.number, hn, Option.some.injEq] at hcode
    have hindex : (index' : Int) = index := Operand.imm.inj (congrArg Instruction.mid hcode)
    rw [Int.ofNat_inj.mp hindex] at himports'
    rw [himports'.unique himports]
    exact hwords

/-- **The lines of a call of a system function are sound.** -/
theorem callNative_sound {source : BlockId}
    (h : Emits L.env source s (.callNative dst name arguments) lines s')
    {line : Line} (hr : lines[r]? = some line) : S.Sound (L.pieceStart q + r) line.instruction := by
  cases h with
  | @callNative _ _ _ native slots index context frame result t _ hlookup hslots himported hframe
      hresult =>
    have hlast := hresult.grows.trans P.grows_last
    have hpushed := hframe.grows.trans hlast
    have hbase : S.Word s.frame.size false := site.word_pushed hpushed rfl
    have hgrown := length_lt_of_pushed (hframe.grows.trans hresult.grows) rfl
    have himports := site.imports hlookup himported (hpushed.context.trans L.context_grows)
    have hfirst : L.lines[L.pieceStart q + 0]? = some frame := P.line rfl
    obtain ⟨i, d, hi, hmakes, hmarks, hother⟩ :=
      site.nativeFrame_makes hlookup himports hframe hlast hfirst
    obtain ⟨hcovers, hwords⟩ := P.nativeResult_words site hlookup hresult
    cases r with
    | zero =>
      cases hr
      cases hframe with
      | variadic => exact sound_reaching rfl nofun nofun (Instruction.forall_operands trivial trivial hbase.1)
      | fixed =>
        exact sound_reaching rfl nofun nofun (Instruction.forall_operands site.handle trivial hbase.1)
    | succ r =>
      have hrest := List.mem_of_getElem? (List.getElem?_cons_succ ▸ hr)
      rcases List.mem_append.mp hrest with hargument | hcall
      · exact P.arguments_sound site hgrown hi hmakes hbase hslots hmarks (by omega) hargument
      · simp only [List.mem_cons, List.not_mem_nil, or_false] at hcall
        rcases hcall with rfl | rfl
        · exact sound_resultLine hcovers hbase.1
            (P.native_takes site hgrown himports hframe rfl hi hother hwords)
        · exact sound_reaching rfl nofun nofun (Instruction.forall_operands hbase.1 trivial site.handle)

end Piece

/-! ## All code -/

theorem Piece.sound {f : Function} {c c' : Context} {fragment : Fragment} {L : Lowering f c fragment c'}
    {T : L.Trace} {q r : Nat} {j : Instr} {lines : List Line} {s s' : State} {S : Scope}
    (P : Piece T q j lines s s') (site : Site L S) {source : BlockId}
    (h : Emits L.env source s j lines s') {line : Line} (hr : lines[r]? = some line) :
    S.Sound (L.pieceStart q + r) line.instruction := by
  cases j with
  | call dst callee arguments => exact P.call_sound site h hr
  | callNative dst name arguments => exact P.callNative_sound site h hr
  | _ => exact P.sound_of_not_call site h nofun nofun hr

/-- **The code of a function agrees with the descriptors.** -/
theorem Site.sound {f : Function} {c c' : Context} {fragment : Fragment} {L : Lowering f c fragment c'}
    {S : Scope} (site : Site L S) {n : Nat} {i : Instruction} (hi : S.code[n]? = some i) :
    S.Sound n i := by
  obtain ⟨T⟩ := L.trace
  obtain ⟨q, r, j, lines, horigin⟩ := site.origin T hi
  obtain ⟨b, hq⟩ := horigin.instr
  obtain ⟨line, hline, hsimilar⟩ := horigin.line
  have P : Piece T q j lines (T.state q) (T.state (q + 1)) := ⟨⟨b, hq⟩, horigin.piece, rfl, rfl⟩
  rw [horigin.number]
  exact (P.sound site (T.emits q b j lines hq horigin.piece) hline).congr hsimilar

end DisBackend
