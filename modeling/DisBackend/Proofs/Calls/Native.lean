import DisBackend.Proofs.Calls.Local

/-!
# `Proofs.Calls.Native` — calls of system functions are linked to the right import

A call of a system function names the module word that holds the system module, and the number of the
function among the imports. The machine trusts that the frame it is handed has the shape that the function
expects. A function that takes any number of arguments gets a frame made for this call; any other gets the
frame of its import.

## Contents

* `nativeCode` — the code of a call;
* `SystemFrame`, `Image.SystemResult`, `Image.NativeCall` — what a call has to get right;
* `Seat.native_at`, `Seat.systemFrame`, `Seat.systemResult`, `Seat.nativeCall` — it does;
* `compile_native_calls` — all calls of a compiled module.
-/

namespace DisBackend

open Ssa (BlockId Function Instr Program Ty ValueId)

/-- The instructions that call import number `index` of the module behind the module word at `handle`. The
frame is made by `make`, and the results go to the words from `result` on. -/
def nativeCode (make : Instruction) (base : Int) (slots : List Slot) (result : Int) (index : Nat)
    (handle : Int) : List Instruction :=
  make :: argumentCode base slots
    ++ [resultCode base result, .ternary .mcall (.fp base) (.imm index) (.mp handle)]

/-! ## What a call has to get right -/

/-- The instruction that makes a frame for the arguments in `slots`. -/
inductive SystemFrame (compiled : CompiledModule) (native : SysFunction) (index : Nat) (handle base : Int)
    (slots : List Slot) : Instruction → Prop where
  /-- For a function that takes any number of arguments, it is a frame of its own, which has the arguments and
  nothing else. -/
  | variadic {id : Int} {d : TypeDescriptor} (open_ended : native.isVariadic = true)
      (described : compiled.module.descriptor? id = some d)
      (no_function : ∀ symbol ∈ compiled.symbols, symbol.frameId ≠ id)
      (size : d.size = wordOffset headerBytes slots.length)
      (pointers : ∀ offset, offset ∈ d.pointerOffsets ↔ ∃ (k : Nat) (slot : Slot),
        slots[k]? = some slot ∧ slot.ty.isPointer = true ∧ offset = wordOffset headerBytes k) :
      SystemFrame compiled native index handle base slots (.binary .frame (.imm id) (.fp base))
  /-- Any other function has a word for each argument. -/
  | fixed (closed : native.isVariadic = false)
      (count : (slots.length : Int) = (native.frameSize - headerBytes) / wordBytes)
      (size : native.frameSize = wordOffset headerBytes slots.length)
      (pointers : ∀ (k : Nat) (slot : Slot), slots[k]? = some slot →
        (native.frameDescriptor 0).hasPointer (wordOffset headerBytes k) = slot.ty.isPointer) :
      SystemFrame compiled native index handle base slots
        (.ternary .mframe (.mp handle) (.imm index) (.fp base))

section Agreement

variable {program : Program} {compiled : CompiledModule} {f : Function} {symbol : Symbol}

/-- The words from `result` on are for what `native` returns: the word of the destination, if the function
returns one value, or words that were handed out for the call, and not the one for the frame. -/
inductive Image.SystemResult (B : Image program compiled f symbol) (words : List Int) (base : Int)
    (native : SysFunction) : Option ValueId → Int → Prop where
  | kept {v : ValueId} {slot : Slot} (slot_found : B.slots.lookup v = some slot)
      (returns : native.returns = [slot.ty]) : B.SystemResult words base native (some v) slot.offset
  | dropped {result : Int} (handed_out : ∀ k < max native.returns.length 1,
      wordOffset result k ∈ words ∧ wordOffset result k ≠ base) :
      B.SystemResult words base native none result

/-- The section `s` of the function with the image `B` calls the system function `native`, which has the name
`name`. -/
structure Image.NativeCall (B : Image program compiled f symbol) (s : Section) (dst : Option ValueId)
    (name : String) (arguments : List ValueId) (native : SysFunction) (slots : List Slot)
    (make : Instruction) (base result : Int) (index : Nat) (handle : Int) : Prop where
  found : SysFunction.lookup? name = some native
  argument_slots : List.Forall₂ (fun v slot => B.slots.lookup v = some slot) arguments slots
  code : s.code = nativeCode make base slots result index handle
  framed : SystemFrame compiled native index handle base slots make
  /-- The number is that of the function in the only group of imports. -/
  imported : ∃ group, compiled.module.imports = [group] ∧ group[index]? = some ⟨native.signature, name⟩
  /-- The first instruction of the module loads the system module into the word. -/
  loaded : compiled.module.code[0]? = some (.ternary .load (.mp sysPathOffset) (.imm 0) (.mp handle))
  base_own : base ∈ s.words
  base_marked : B.frame.FrameWord base false
  result_words : B.SystemResult s.words base native dst result
  result_marked : ∀ (k : Nat) (ty : Ty), native.returns[k]? = some ty →
    B.frame.FrameWord (wordOffset result k) ty.isPointer

end Agreement

/-! ## It does -/

namespace SysFunction

variable {name : String} {native : SysFunction}

theorem name_of_lookup? (h : lookup? name = some native) : native.name = name := by
  simpa using List.find?_some h

/-- The frame of a function with a fixed number of arguments ends with the last argument. -/
theorem frameSize_eq (h : lookup? name = some native) {count : Nat}
    (hcount : native.parameterCount? = some count) :
    native.isVariadic = false ∧ (count : Int) = (native.frameSize - headerBytes) / wordBytes ∧
      native.frameSize = wordOffset headerBytes count := by
  have hall : ∀ g ∈ all, g.isVariadic = true ∨ headerBytes ≤ g.frameSize ∧ g.frameSize % wordBytes = 0 := by
    decide
  unfold parameterCount? at hcount
  cases hvariadic : native.isVariadic with
  | true =>
    rw [if_pos hvariadic] at hcount
    cases hcount
  | false =>
    rw [if_neg (by rw [hvariadic]; exact Bool.false_ne_true), Option.some.injEq] at hcount
    rcases hall native (List.mem_of_find?_eq_some h) with htrue | ⟨hle, hwhole⟩
    · rw [hvariadic] at htrue
      cases htrue
    · unfold headerBytes wordBytes at *
      refine ⟨rfl, by omega, ?_⟩
      unfold wordOffset wordBytes
      omega

theorem length_droppedWords (native : SysFunction) :
    native.droppedWords.length = max native.returns.length 1 := by
  unfold droppedWords
  cases native.returns with
  | nil => rfl
  | cons ty tys =>
    rw [if_neg (List.cons_ne_nil _ _), List.length_map, List.length_cons]
    omega

end SysFunction

theorem NativeFrame.frame_eq {native : SysFunction} {index : Nat} {slots : List Slot} {base : Int}
    {s t : State} {line : Line} (h : NativeFrame native index slots base s line t) : t.frame = s.frame := by
  cases h <;> rfl

theorem NativeFrame.settled {native : SysFunction} {index : Nat} {slots : List Slot} {base : Int}
    {s t : State} {line : Line} (h : NativeFrame native index slots base s line t) :
    line.fixup = .settled := by
  cases h <;> rfl

section Seats

variable {options : CompileOptions} {program : Program} {compiled : CompiledModule}
  {C : Compilation options program compiled} {f : Function} {symbol : Symbol} (S : Seat C f symbol)
  {q : Nat} {name : String} {native : SysFunction} {index : Nat}

include S in
/-- **What is called is what was imported** under that number. -/
theorem Seat.native_at (hlookup : SysFunction.lookup? name = some native) {c context : Context}
    (himported : Context.nativeImport native c = .ok index context) (hgrows : context.Grows S.after) :
    C.final.natives[index]? = some native := by
  obtain ⟨g, hg, hname⟩ := Context.nativeImport_ok himported
  have hfinal := getElem?_of_prefix (hgrows.trans S.after_grows).natives hg
  -- names tell the functions of the system module apart
  have hgenuine := C.lookup?_of_imported (List.mem_of_getElem? hfinal)
  rw [hname, SysFunction.lookup?_name hlookup, Option.some.injEq] at hgenuine
  rw [hgenuine]
  exact hfinal

/-- **The frame of a call has the shape that the function expects.** -/
theorem Seat.systemFrame (hlookup : SysFunction.lookup? name = some native) {slots : List Slot} {base : Int}
    {s t : State} {line : Line} (h : NativeFrame native index slots base s line t)
    (ht : t.Grows S.lowering.final) (starts : List Nat) (n : Nat) :
    SystemFrame compiled native index sysOffset base slots (line.linked starts S.site.place n) := by
  cases h with
  | @variadic d hopen hdescribed _ =>
    have hsite : S.fragment.callSites[s.callSites.length]? = some d := by
      rw [S.lowering.fragment_callSites]
      exact getElem?_of_prefix ht.callSites List.getElem?_concat_length
    obtain ⟨d', hd', hsize, hmap⟩ := S.site.callSite _ d hsite
    have hpointers : d'.pointerOffsets = d.pointerOffsets := by
      unfold TypeDescriptor.pointerOffsets
      rw [hmap]
    refine .variadic ?_ hd' ?_ ?_ fun offset => ?_
    · unfold SysFunction.parameterCount? at hopen
      by_contra hclosed
      rw [if_neg hclosed] at hopen
      cases hopen
    · -- call sites are numbered after the frames of functions
      intro other hmem hid
      obtain ⟨m, hm⟩ := List.mem_iff_getElem?.mp hmem
      obtain ⟨fragment, hfragment, rfl⟩ := C.assembly.symbol_eq hm
      have hlt := (List.getElem?_eq_some_iff.mp hfragment).1
      rw [S.place_eq] at hid
      have hid' : (m : Int) + 1 = s.callSites.length + (callSiteStart C.fragments S.number : Nat) := hid
      unfold callSiteStart at hid'
      omega
    · rw [hsize]
      exact (describe_ok hdescribed).2
    · rw [hpointers, mem_pointerOffsets_of_describe hdescribed headerBytes_eq]
      simp only [List.getElem?_map, Option.map_eq_some_iff]
      constructor
      · rintro ⟨k, ⟨slot, hslot, hpointer⟩, rfl⟩
        exact ⟨k, slot, hslot, hpointer, rfl⟩
      · rintro ⟨k, slot, hslot, hpointer, rfl⟩
        exact ⟨k, ⟨slot, hslot, hpointer⟩, rfl⟩
  | fixed hcount hpointers =>
    obtain ⟨hclosed, hlength, hsize⟩ := SysFunction.frameSize_eq hlookup hcount
    refine .fixed hclosed hlength hsize fun k slot hk => ?_
    exact (SysFunction.marks_parameter hlookup hcount (List.getElem?_eq_some_iff.mp hk).1
      (hpointers k slot hk)).2

variable {lines : List Line} {dst : Option ValueId} {arguments : List ValueId}

/-- **The words for the results** are used by nothing but the destination. -/
theorem Seat.systemResult {s s' t : State}
    (P : Piece S.trace q (.callNative dst name arguments) lines s s')
    (hlookup : SysFunction.lookup? name = some native)
    (hframe : t.frame.words = s.frame.words ++ [false]) {result : Int}
    (h : NativeResult S.lowering.env native t dst result s') :
    S.image.SystemResult (s.newWords s') s.frame.size native dst result := by
  cases h with
  | kept single hslot =>
    exact .kept hslot (P.returns_of_slot rfl hlookup single hslot)
  | dropped =>
    apply Image.SystemResult.dropped
    intro k hk
    -- the words come after the one for the frame
    have hoffset : wordOffset t.frame.size k
        = wordOffset headerBytes (s.frame.words.length + 1 + k) := by
      unfold Frame.size
      rw [hframe, List.length_append, List.length_singleton]
      unfold wordOffset wordBytes
      omega
    rw [hoffset]
    constructor
    · refine State.mem_newWords.mpr ⟨_, by omega, ?_, rfl⟩
      show _ < (t.frame.words ++ SysFunction.droppedWords native).length
      rw [hframe, List.length_append, List.length_append, List.length_singleton,
        native.length_droppedWords]
      omega
    · intro heq
      have := wordOffset_injective heq
      omega

/-- **A call of a system function is linked to the right import,** with a frame of the right shape. -/
theorem Seat.nativeCall (hq : f.instructions[q]? = some (.callNative dst name arguments)) :
    ∃ s native slots make base result index handle, S.image.sections[q]? = some s ∧
      S.image.NativeCall s dst name arguments native slots make base result index handle := by
  obtain ⟨b, lines, P, hemits⟩ := S.piece hq
  generalize hafter : S.trace.state (q + 1) = after at hemits
  cases hemits with
  | @callNative _ _ _ native slots index context frame result t _ hlookup hslots himported hframe
      hresult =>
    subst hafter
    have hlast := hresult.grows.trans P.grows_last
    have hpushed := hframe.grows.trans hlast
    have hnative := S.native_at hlookup himported (hpushed.context.trans S.lowering.context_grows)
    refine ⟨⟨_, S.wordsOf q⟩, native, slots, frame.linked S.lowering.starts S.site.place 0,
      (S.trace.state q).frame.size, result, index, sysOffset,
      S.section_of_code (S.lowering.section_of_piece P.piece ?_), ?_⟩
    · intro line hline
      simp only [List.mem_append, List.mem_cons, List.not_mem_nil, or_false] at hline
      rcases hline with (rfl | hargument) | rfl | rfl
      · exact .inl hframe.settled
      · exact .inl (fixup_argumentLines hargument)
      · exact .inl rfl
      · exact .inl rfl
    · exact {
        found := hlookup
        argument_slots := hslots
        code := by
          show List.map _ _ = _
          rw [List.map_append, List.map_cons, linked_argumentLines, List.map_cons, linked_resultLine,
            List.map_singleton]
          rfl
        framed := S.systemFrame hlookup hframe hlast _ _
        imported := by
          refine ⟨_, C.imports_eq, ?_⟩
          rw [List.getElem?_map, hnative, ← SysFunction.name_of_lookup? hlookup]
          rfl
        loaded := C.code_first
        base_own := State.size_mem_newWords (length_lt_of_pushed (hframe.grows.trans hresult.grows) rfl)
        base_marked := S.site.word_pushed hpushed rfl
        result_words := S.systemResult P hlookup (by rw [hframe.frame_eq]) hresult
        result_marked := (P.nativeResult_words S.site hlookup hresult).2 }

end Seats

/-- **All calls of system functions in a compiled module are linked to the right import,** with a frame of
the right shape. -/
theorem compile_native_calls {options : CompileOptions} {program : Program} {compiled : CompiledModule}
    {log log' : Log} (h : compile options program log = .ok compiled log') :
    ∃ order, program.compileOrder? = some order ∧
      List.Forall₂ (fun f symbol => ∃ B : Image program compiled f symbol,
        ∀ (q : Nat) (dst : Option ValueId) (name : String) (arguments : List ValueId),
          f.instructions[q]? = some (.callNative dst name arguments) →
          ∃ s native slots make base result index handle, B.sections[q]? = some s ∧
            B.NativeCall s dst name arguments native slots make base result index handle)
        order compiled.symbols := by
  obtain ⟨C⟩ := compile_compilation h
  refine ⟨C.order, C.selected, C.images ?_⟩
  intro f symbol S q dst name arguments hq
  exact S.nativeCall hq

/-- One call makes a frame of its own for two arguments and drops the result. The other gets the frame of its
import, and keeps the result. -/
theorem compile_native_calls_shelf : ∃ compiled log, compile {} shelf #[] = .ok compiled log ∧
    ∃ B : Image shelf compiled shelfMain ⟨"main", 1, 1, 23⟩,
      (∃ s native slots id base result index handle, B.sections[7]? = some s ∧
        B.NativeCall s none "print" [⟨4⟩, ⟨0⟩] native slots (.binary .frame (.imm id) (.fp base)) base result
          index handle ∧ slots.length = 2 ∧ result ∈ s.words) ∧
      ∃ s native slots base slot index handle, B.sections[8]? = some s ∧
        B.NativeCall s (some ⟨5⟩) "open" [⟨4⟩, ⟨0⟩] native slots
          (.ternary .mframe (.mp handle) (.imm (index : Nat)) (.fp base)) base slot.offset index handle ∧
        B.slots.lookup ⟨5⟩ = some slot ∧ slot.ty = .object := by
  obtain ⟨compiled, log, h, hsymbols, -⟩ := compile_shelf
  obtain ⟨order, horder, hcalls⟩ := compile_native_calls h
  have horder' : shelf.compileOrder? = some [shelfMain, shelfLabel] := by decide +kernel
  rw [horder', Option.some.injEq] at horder
  subst horder
  rw [hsymbols] at hcalls
  obtain ⟨⟨B, hB⟩, -⟩ := List.forall₂_cons.mp hcalls
  refine ⟨compiled, log, h, B, ?_, ?_⟩
  · obtain ⟨s, native, slots, make, base, result, index, handle, hs, hcall⟩ :=
      hB 7 none "print" [⟨4⟩, ⟨0⟩] rfl
    have hopen : ∀ g, SysFunction.lookup? "print" = some g → g.isVariadic = true := by decide
    have hresult := hcall.result_words
    cases hresult with
    | dropped hwords =>
      have hfirst := (hwords 0 (by omega)).1
      rw [wordOffset_zero] at hfirst
      cases hcall.framed with
      | @variadic id d =>
        exact ⟨s, native, slots, id, base, result, index, handle, hs, hcall,
          hcall.argument_slots.length_eq.symm, hfirst⟩
      | fixed hclosed =>
        rw [hopen native hcall.found] at hclosed
        cases hclosed
  · obtain ⟨s, native, slots, make, base, result, index, handle, hs, hcall⟩ :=
      hB 8 (some ⟨5⟩) "open" [⟨4⟩, ⟨0⟩] rfl
    have hnative : ∀ g, SysFunction.lookup? "open" = some g →
        g.isVariadic = false ∧ g.returns = [.object] := by decide
    obtain ⟨hclosed, hreturns⟩ := hnative native hcall.found
    have hresult := hcall.result_words
    cases hresult with
    | @kept _ slot hslot hty =>
      rw [hreturns] at hty
      cases hcall.framed with
      | variadic hopen =>
        rw [hclosed] at hopen
        cases hopen
      | fixed =>
        exact ⟨s, native, slots, base, slot, index, handle, hs, hcall, hslot,
          (List.singleton_inj.mp hty).symm⟩

end DisBackend
