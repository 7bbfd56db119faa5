import DisBackend.Proofs.Calls.Image

/-!
# `Proofs.Calls.Local` — a caller and its callee agree

A call makes a frame for its callee, stores the arguments there, says where the result goes and hands
control over. The code of the callee was written from the parameter list of one definition, and the call was
checked against one definition: here it is shown that the two are the same, and that what the one stores is
what the other finds.

## Contents

* `argumentCode`, `resultCode`, `callCode` — the code of a call;
* `Image.Takes`, `Image.ResultWord`, `Image.LocalCall` — what the two agree on;
* `Compilation.callee_seat`, `Seat.takes`, `Seat.resultWord`, `Seat.localCall` — they do;
* `compile_local_calls` — all calls of a compiled module.
-/

namespace DisBackend

open Ssa (BlockId Function Instr Program Ty ValueId)

/-! ## The code of a call -/

/-- The instructions that store arguments in the frame of a call. -/
def argumentCode (base : Int) (slots : List Slot) : List Instruction :=
  slots.mapIdx fun k slot =>
    .binary (moveOpcode slot.ty) (.fp slot.offset) (.fpIndirect base (wordOffset headerBytes k))

/-- The instruction that tells the callee where the result goes. -/
def resultCode (base word : Int) : Instruction := .binary .lea (.fp word) (.fpIndirect base returnSlot)

/-- The instructions that call the function `callee` with the arguments in `slots`, through a frame that the
word at `base` points to. The result goes to the word at `result`, if there is one. -/
def callCode (callee : Symbol) (base : Int) (slots : List Slot) (result : Option Int) : List Instruction :=
  .binary .frame (.imm callee.frameId) (.fp base) :: argumentCode base slots
    ++ result.toList.map (resultCode base) ++ [.binary .call (.fp base) (.imm callee.address)]

section Code

variable {starts : List Nat} {place : Place} {n : Nat}

theorem linked_moveLine (ty : Ty) (src dst : Operand) :
    (moveLine ty src dst).linked starts place n = .binary (moveOpcode ty) src dst := by
  show (Instruction.binary (moveOpcode ty) src dst).movedTo place.start place.callSiteBase = _
  apply Instruction.movedTo_eq
  all_goals cases ty <;> rfl

theorem linked_argumentLines (base : Int) (slots : List Slot) :
    (argumentLines base slots).map (Line.linked starts place n) = argumentCode base slots := by
  apply List.ext_getElem?
  intro k
  unfold argumentLines argumentCode
  rw [List.getElem?_map, List.getElem?_mapIdx, List.getElem?_mapIdx, Option.map_map]
  cases slots[k]? with
  | none => rfl
  | some slot => exact congrArg some (linked_moveLine _ _ _)

theorem linked_resultLine (word base : Int) :
    (resultLine word base).linked starts place n = resultCode base word :=
  Instruction.movedTo_eq rfl rfl rfl _ _

theorem fixup_argumentLines {base : Int} {slots : List Slot} {line : Line}
    (h : line ∈ argumentLines base slots) : line.fixup = .settled := by
  obtain ⟨k, hk, rfl⟩ := List.mem_mapIdx.mp h
  rfl

theorem CallResult.settled {env : Env} {base : Int} {s s' : State} {result : Option Ty}
    {dst : Option ValueId} {lines : List Line} (h : CallResult env base s result dst lines s')
    {line : Line} (hline : line ∈ lines) : line.fixup = .settled := by
  cases h with
  | none => cases hline
  | kept | dropped =>
    obtain rfl := List.mem_singleton.mp hline
    rfl

end Code

/-! ## What caller and callee agree on -/

section Agreement

variable {program : Program} {compiled : CompiledModule} {f : Function} {symbol : Symbol}

/-- The function with the image `B` takes arguments that its caller has in `slots`: there is room for them in
its frames, and parameter number `k` is where argument number `k` is stored. -/
structure Image.Takes (B : Image program compiled f symbol) (slots : List Slot) : Prop where
  count : f.parameters.length = slots.length
  room : wordOffset headerBytes slots.length ≤ B.frame.size
  parameter : ∀ (k : Nat) (slot : Slot), slots[k]? = some slot → f.parameters[k]? = some slot.ty ∧
    B.slots.lookup ⟨k⟩ = some ⟨wordOffset headerBytes k, slot.ty⟩ ∧
    B.frame.FrameWord (wordOffset headerBytes k) slot.ty.isPointer

/-- Where the caller with the image `B` has the result of a call go: nowhere, to the word of the destination,
or to one of the words that were handed out for the call, and not the one for the frame. -/
inductive Image.ResultWord (B : Image program compiled f symbol) (words : List Int) (base : Int) :
    Option Ty → Option ValueId → Option Int → Prop where
  | none : B.ResultWord words base none none none
  | kept {ty : Ty} {v : ValueId} {slot : Slot} (slot_found : B.slots.lookup v = some slot)
      (same_type : slot.ty = ty) : B.ResultWord words base (some ty) (some v) (some slot.offset)
  | dropped {ty : Ty} {word : Int} (handed_out : word ∈ words) (apart : word ≠ base) :
      B.ResultWord words base (some ty) none (some word)

/-- The section `s` of the function with the image `B` calls the function `target` of the program, which has
the name `name` and lies where `callee` says. The arguments are in `slots`, the frame for the callee is
behind the word at `base`, and the result goes to the word at `result`. -/
structure Image.LocalCall (B : Image program compiled f symbol) (s : Section) (dst : Option ValueId)
    (name : String) (arguments : List ValueId) (target : Function) (callee : Symbol) (slots : List Slot)
    (base : Int) (result : Option Int) : Prop where
  found : program.function? name = some target
  defined : target.isDeclaration = false
  named : compiled.symbol? name = some callee
  argument_slots : List.Forall₂ (fun v slot => B.slots.lookup v = some slot) arguments slots
  code : s.code = callCode callee base slots result
  /-- What lies at the callee's address is the very function that was found, and it takes the arguments. -/
  taken : ∃ B' : Image program compiled target callee, B'.Takes slots
  base_own : base ∈ s.words
  base_marked : B.frame.FrameWord base false
  result_word : B.ResultWord s.words base target.result dst result
  result_marked : ∀ word ty, result = some word → target.result = some ty →
    B.frame.FrameWord word ty.isPointer

end Agreement

/-! ## They agree -/

section Seats

variable {options : CompileOptions} {program : Program} {compiled : CompiledModule}
  {C : Compilation options program compiled} {f : Function} {symbol : Symbol} (S : Seat C f symbol)
  {q : Nat} {j : Instr}

/-- The lines of an instruction, and the states before and after they were written. -/
theorem Seat.piece (h : f.instructions[q]? = some j) : ∃ (b : Ssa.Block × Nat) (lines : List Line),
    Piece S.trace q j lines (S.trace.state q) (S.trace.state (q + 1)) ∧
      Emits S.lowering.env ⟨b.2⟩ (S.trace.state q) j lines (S.trace.state (q + 1)) := by
  rw [← f.map_numbered, List.getElem?_map, Option.map_eq_some_iff] at h
  obtain ⟨⟨b, j⟩, hq, rfl⟩ := h
  have hlt : q < S.lowering.pieces.flatten.length := by
    rw [← S.lowering.length_numbered]
    exact (List.getElem?_eq_some_iff.mp hq).1
  have hlines := List.getElem?_eq_getElem hlt
  exact ⟨b, _, ⟨⟨b, hq⟩, hlines, rfl, rfl⟩, S.trace.emits q b j _ hq hlines⟩

/-- The frame of a function has room for its parameters. -/
theorem Seat.parameters_fit : wordOffset headerBytes f.parameters.length ≤ S.frame.size := by
  have hle : f.parameters.length ≤ S.fragment.frame.words.length := by
    by_contra hlt
    -- the parameter that lies past the end of the frame would have a word
    have hword := S.lowering.parameter_word (List.getElem?_eq_getElem (Nat.lt_of_not_le hlt))
    rw [List.getElem?_eq_none (Nat.le_refl _)] at hword
    cases hword
  rw [(describe_ok S.described).2]
  show _ ≤ wordOffset headerBytes S.fragment.frame.words.length
  unfold wordOffset wordBytes
  omega

/-- **A function takes arguments of the types of its parameters.** -/
theorem Seat.takes {slots : List Slot} (hcount : f.parameters.length = slots.length)
    (htypes : ∀ (k : Nat) (slot : Slot) (ty : Ty), slots[k]? = some slot → f.parameters[k]? = some ty →
      ty = slot.ty) : S.image.Takes slots := by
  refine ⟨hcount, ?_, fun k slot hslot => ?_⟩
  · rw [← hcount]
    exact S.parameters_fit
  · have hlt : k < f.parameters.length := by
      rw [hcount]
      exact (List.getElem?_eq_some_iff.mp hslot).1
    have hty := List.getElem?_eq_getElem hlt
    rw [htypes k slot _ hslot hty] at hty
    have hparameter := S.image.parameter k _ hty
    exact ⟨hty, hparameter, S.image.marked _ _ hparameter⟩

/-- **A call finds the definition it was checked against.** -/
theorem Compilation.callee_seat (C : Compilation options program compiled) {name : String}
    {target : Function} (hfound : program.function? name = some target)
    (hbody : target.isDeclaration = false) {placement : Placement}
    (hplacement : calleeOf? C.fragments name = some placement) :
    ∃ callee, compiled.symbol? name = some callee ∧ placement = callee.placement ∧
      Nonempty (Seat C target callee) := by
  obtain ⟨j, fragment, hfragment, rfl, rfl, -⟩ := calleeOf?_ok hplacement
  have hsymbol := C.assembly.symbol hfragment
  refine ⟨_, C.symbol?_name (List.mem_of_getElem? hsymbol), rfl, ?_⟩
  exact C.seat (C.callee_eq hfound hbody hfragment rfl) hsymbol

variable {lines : List Line} {dst : Option ValueId} {name : String} {arguments : List ValueId}

/-- Where the result of a call goes, and the code that says so. -/
theorem Seat.resultWord
    (P : Piece S.trace q (.call dst name arguments) lines (S.trace.state q) (S.trace.state (q + 1)))
    {target : Function} (hfound : S.before.program.function? name = some target) {results : List Line}
    (h : CallResult S.lowering.env (S.trace.state q).frame.size
      { S.trace.state q with frame := ⟨(S.trace.state q).frame.words ++ [false]⟩ } target.result dst
      results (S.trace.state (q + 1))) (starts : List Nat) (place : Place) (n : Nat) :
    ∃ word : Option Int, results.map (Line.linked starts place n)
        = word.toList.map (resultCode (S.trace.state q).frame.size) ∧
      S.image.ResultWord (S.wordsOf q) (S.trace.state q).frame.size target.result dst word ∧
      ∀ offset ty, word = some offset → target.result = some ty →
        S.image.frame.FrameWord offset ty.isPointer := by
  generalize hafter : S.trace.state (q + 1) = after at h
  generalize htarget : target.result = result at h
  cases h with
  | none => exact ⟨none, rfl, .none, nofun⟩
  | @kept ty v slot hslot =>
    have hty : slot.ty = ty := Piece.slot_call P.mem hfound htarget hslot
    refine ⟨some slot.offset, congrArg (· :: []) (linked_resultLine _ _), .kept hslot hty, ?_⟩
    rintro offset ty' ⟨⟩ ⟨⟩
    rw [← hty]
    exact S.image.marked v slot hslot
  | @dropped ty =>
    -- the word for the result is the one after the word for the frame
    have hgrown : (S.trace.state (q + 1)).frame.words.length = (S.trace.state q).frame.words.length + 2 := by
      rw [hafter]
      simp
    have hnew : wordOffset headerBytes ((S.trace.state q).frame.words.length + 1) ∈ S.wordsOf q :=
      State.mem_newWords.mpr ⟨_, Nat.le_succ _, by omega, rfl⟩
    have hsize : Frame.size ⟨(S.trace.state q).frame.words ++ [false]⟩
        = wordOffset headerBytes ((S.trace.state q).frame.words.length + 1) := by
      unfold Frame.size
      rw [List.length_append]
      rfl
    rw [hsize]
    refine ⟨some _, congrArg (· :: []) (linked_resultLine _ _), .dropped hnew ?_, ?_⟩
    · intro heq
      have := wordOffset_injective heq
      omega
    · rintro offset ty' ⟨⟩ ⟨⟩
      rw [← hsize]
      exact S.site.word_pushed (hafter ▸ P.grows_last) rfl

/-- **A caller and its callee agree.** -/
theorem Seat.localCall (hq : f.instructions[q]? = some (.call dst name arguments)) :
    ∃ s target callee slots base result, S.image.sections[q]? = some s ∧
      S.image.LocalCall s dst name arguments target callee slots base result := by
  obtain ⟨b, lines, P, hemits⟩ := S.piece hq
  generalize hafter : S.trace.state (q + 1) = after at hemits
  cases hemits with
  | @call _ _ _ target slots results _ found defined count hslots htypes hresult =>
    subst hafter
    have hfound : S.before.program.function? name = some target := by
      rw [← found, P.grows_first.context.program]
      rfl
    -- the callee was placed, and what was placed under its name is the function that was found
    obtain ⟨placement, hplacement⟩ := S.lowering.callee_placed S.site.linkedAs (P.line (r := 0) rfl) rfl
    have hcallee : calleeOf? C.fragments name = some placement := by
      rw [← hplacement, S.place_eq]
    obtain ⟨callee, hnamed, rfl, ⟨S'⟩⟩ :=
      C.callee_seat (S.program_eq ▸ hfound) defined hcallee
    obtain ⟨result, hcode, hword, hmarked⟩ := S.resultWord P hfound hresult S.lowering.starts
      S.site.place 0
    have hpushed := hresult.grows.trans P.grows_last
    refine ⟨⟨_, S.wordsOf q⟩, target, callee, slots, (S.trace.state q).frame.size, result,
      S.section_of_code (S.lowering.section_of_piece P.piece ?_), ?_⟩
    · intro line hline
      simp only [List.mem_append, List.mem_cons, List.not_mem_nil, or_false] at hline
      rcases hline with ((rfl | hargument) | hresultLine) | rfl
      · exact .inr ⟨_, _, rfl⟩
      · exact .inl (fixup_argumentLines hargument)
      · exact .inl (hresult.settled hresultLine)
      · exact .inr ⟨_, _, rfl⟩
    · exact {
        found := S.program_eq ▸ hfound
        defined := defined
        named := hnamed
        argument_slots := hslots
        code := by
          show List.map _ _ = _
          rw [List.map_append, List.map_append, List.map_cons, linked_argumentLines, hcode,
            List.map_singleton, Line.linked_callee hplacement, Line.linked_callee hplacement]
          rfl
        taken := ⟨S'.image, S'.takes (count.trans hslots.length_eq) htypes⟩
        base_own := State.size_mem_newWords (length_lt_of_pushed hresult.grows rfl)
        base_marked := S.site.word_pushed hpushed rfl
        result_word := hword
        result_marked := hmarked }

end Seats

/-- **Caller and callee agree on all calls of a compiled module.** Every function that is compiled has an
image in the module, in which each call is made to the definition that the program has under its name. -/
theorem compile_local_calls {options : CompileOptions} {program : Program} {compiled : CompiledModule}
    {log log' : Log} (h : compile options program log = .ok compiled log') :
    ∃ order, program.compileOrder? = some order ∧
      List.Forall₂ (fun f symbol => ∃ B : Image program compiled f symbol,
        ∀ (q : Nat) (dst : Option ValueId) (name : String) (arguments : List ValueId),
          f.instructions[q]? = some (.call dst name arguments) →
          ∃ s target callee slots base result, B.sections[q]? = some s ∧
            B.LocalCall s dst name arguments target callee slots base result)
        order compiled.symbols := by
  obtain ⟨C⟩ := compile_compilation h
  refine ⟨C.order, C.selected, C.images ?_⟩
  intro f symbol S q dst name arguments hq
  exact S.localCall hq

/-- A program that declares a function with other parameters before it defines it, and defines it again
afterwards. -/
def reshelved : Program :=
  { shelf with
    functions := [⟨"label", [.int], none, []⟩, shelfLabel,
      ⟨"label", [], some .int, [⟨[.const ⟨0⟩ (.int 1), .ret (some ⟨0⟩)]⟩]⟩, shelfMain] }

/-- The call in `main` is one of the first definition. -/
theorem compile_local_calls_reshelved : ∃ compiled log, compile {} reshelved #[] = .ok compiled log ∧
    compiled.symbols = shelfSymbols ∧
    ∃ B : Image reshelved compiled shelfMain ⟨"main", 1, 1, 23⟩, ∃ s slots base word,
      B.sections[6]? = some s ∧ s.code = callCode ⟨"label", 2, 24, 13⟩ base slots (some word) ∧
      ∃ B' : Image reshelved compiled shelfLabel ⟨"label", 2, 24, 13⟩, B'.Takes slots := by
  have hsymbols : (compiled? reshelved).map CompiledModule.symbols = some shelfSymbols := by decide +kernel
  obtain ⟨compiled, hcompiled, hsymbols⟩ := Option.map_eq_some_iff.mp hsymbols
  obtain ⟨log, h⟩ := compile_of_compiled? hcompiled
  obtain ⟨order, horder, hcalls⟩ := compile_local_calls h
  have horder' : reshelved.compileOrder? = some [shelfMain, shelfLabel] := by decide +kernel
  rw [horder', Option.some.injEq] at horder
  subst horder
  rw [hsymbols] at hcalls
  obtain ⟨⟨B, hB⟩, -⟩ := List.forall₂_cons.mp hcalls
  obtain ⟨s, target, callee, slots, base, result, hs, hcall⟩ := hB 6 (some ⟨4⟩) "label" [⟨3⟩, ⟨2⟩] rfl
  have hfound : reshelved.function? "label" = some shelfLabel := by decide +kernel
  obtain rfl : shelfLabel = target := Option.some.inj (hfound.symm.trans hcall.found)
  have hnamed := hcall.named
  unfold CompiledModule.symbol? at hnamed
  rw [hsymbols] at hnamed
  cases hnamed
  -- the function has a result, so there is a word for it
  have hword := hcall.result_word
  generalize shelfLabel.result = ty at hword
  cases hword with
  | kept => exact ⟨compiled, log, h, hsymbols, B, s, slots, base, _, hs, hcall.code, hcall.taken⟩

end DisBackend
