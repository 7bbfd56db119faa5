import DisBackend.Proofs.Calls.Access
import DisBackend.Proofs.Collector.Maps

/-!
# `Proofs.Calls.Image` — functions as they lie in a compiled module

What a caller and a callee have to agree on is where things lie: the code, the values and the words of the
frame. The image of a function says so. Its code falls into one section for each instruction, every value has
the word that lowering gave it, which is written where the value is given and read where it is taken, and the
words that were handed out for an instruction are used by no other.

## Contents

* `Section`, `Image` — the image of a function;
* `Seat`, `Compilation.seat` — how a function came to lie where it lies;
* `Seat.image`, `Compilation.images` — every compiled function has an image.
-/

namespace DisBackend

open Ssa (BlockId Function Instr Program Ty ValueId)

/-! ## Images -/

/-- There is a word at `offset` after the header of the frames described, marked as `pointer` says. -/
def TypeDescriptor.FrameWord (d : TypeDescriptor) (offset : Int) (pointer : Bool) : Prop :=
  d.Covers headerBytes offset ∧ d.hasPointer offset = pointer

/-- The code of an instruction, and the words of the frame that were handed out for it. -/
structure Section where
  code : List Instruction
  words : List Int

/-- The section uses the word at `offset`: the word was handed out for it, or is named by its code. -/
def Section.Uses (s : Section) (offset : Int) : Prop :=
  offset ∈ s.words ∨ ∃ i ∈ s.code, i.Names offset

/-- The function `f` of `program`, as it lies in a module under the name `symbol`. -/
structure Image (program : Program) (compiled : CompiledModule) (f : Function) (symbol : Symbol) where
  /-- The words of the values. -/
  slots : List (ValueId × Slot)
  /-- The code and the words of each instruction, in order. -/
  sections : List Section
  /-- What describes the frames of the function. -/
  frame : TypeDescriptor
  name : symbol.name = f.name
  descriptor : compiled.module.descriptor? symbol.frameId = some frame
  code : compiled.codeOf symbol = sections.flatMap Section.code
  length : sections.length = f.instructions.length
  /-- The code is that of the fragment which `f` is lowered to, linked at the address of the symbol; and the
  words are those that lowering gives to the values of `f`, one after the other. -/
  lowered : ∃ before fragment after place linked types start, before.program = program ∧
    valueTypes before f = .ok types ∧ assignSlots {} types = .ok (slots, start) ∧
    lowerFunction f before = .ok fragment after ∧ fragment.LinkedAs place linked ∧
    place.start = symbol.address ∧ compiled.codeOf symbol = linked.code ∧
    fragment.frame.descriptor symbol.frameId = .ok frame
  /-- The word of a value is written by the code of the instruction that gives the value, and read by the code
  of those that take it. -/
  accesses : ∀ (q : Nat) (b : Ssa.Block × Nat) (j : Instr) (s : Section), f.numbered[q]? = some (b, j) →
    sections[q]? = some s → Accesses slots s.code f ⟨b.2⟩ j
  /-- The parameters are the first words after the header. -/
  parameter : ∀ (k : Nat) (ty : Ty), f.parameters[k]? = some ty →
    slots.lookup ⟨k⟩ = some ⟨wordOffset headerBytes k, ty⟩
  /-- The word of a value is marked by the type of the value. -/
  marked : ∀ v slot, slots.lookup v = some slot → frame.FrameWord slot.offset slot.ty.isPointer
  /-- No two values share a word. -/
  slots_apart : ∀ v w a b, slots.lookup v = some a → slots.lookup w = some b → a.offset = b.offset → v = w
  /-- The word of a value is handed out for no instruction, and named only by the code of instructions that
  deal with the value. -/
  slot_held : ∀ (q : Nat) (b : Ssa.Block × Nat) (j : Instr) (s : Section), f.numbered[q]? = some (b, j) →
    sections[q]? = some s → ∀ v slot, slots.lookup v = some slot →
      slot.offset ∉ s.words ∧ ∀ i ∈ s.code, i.Names slot.offset → v ∈ f.valuesAt ⟨b.2⟩ j
  /-- What was handed out for an instruction is used by no other. -/
  words_apart : ∀ (q q' : Nat) (s s' : Section), sections[q]? = some s → sections[q']? = some s' →
    ∀ offset ∈ s.words, s'.Uses offset → q' = q

/-! ## From programs to images -/

section Seats

variable {options : CompileOptions} {program : Program} {compiled : CompiledModule}

/-- How the function `f` came to lie where `symbol` says: it was lowered to a fragment, and the linker put
the fragment into the module. -/
structure Seat (C : Compilation options program compiled) (f : Function) (symbol : Symbol) where
  number : Nat
  before : Context
  fragment : Fragment
  after : Context
  lowering : Lowering f before fragment after
  trace : lowering.Trace
  frame : TypeDescriptor
  site : Site lowering (compiled.scope C.order symbol f frame C.data.descriptor)
  program_eq : before.program = program
  after_grows : after.Grows C.final
  lowered : lowerFunction f before = .ok fragment after
  place_eq : site.place =
    ⟨startOf C.fragments number, callSiteStart C.fragments number, calleeOf? C.fragments⟩
  symbol_eq : symbol = ⟨fragment.name, number + 1, startOf C.fragments number, fragment.code.length⟩
  descriptor : compiled.module.descriptor? symbol.frameId = some frame
  described : fragment.frame.descriptor symbol.frameId = .ok frame

/-- **Every compiled function has a seat.** -/
theorem Compilation.seat (C : Compilation options program compiled) {k : Nat} {f : Function}
    {symbol : Symbol} (hk : C.order[k]? = some f) (hsymbol : compiled.symbols[k]? = some symbol) :
    Nonempty (Seat C f symbol) := by
  obtain ⟨fragment, c, c', hfragment, hprogram, hgrows, hlower⟩ := C.lowered_at hk
  obtain ⟨L⟩ := lowerFunction_lowering hlower
  obtain ⟨T⟩ := L.trace
  obtain ⟨frame, hframe, hdescribed⟩ := C.assembly.descriptor?_frame hfragment
  have heq := C.assembly.symbol hfragment
  rw [hsymbol, Option.some.injEq] at heq
  subst heq
  obtain ⟨site, hplace⟩ := C.exists_site hfragment hprogram hgrows L hsymbol hframe
  exact ⟨⟨k, c, fragment, c', L, T, frame, site, hprogram, hgrows, hlower, hplace, rfl, hframe,
    hdescribed⟩⟩

namespace Seat

variable {C : Compilation options program compiled} {f : Function} {symbol : Symbol} (S : Seat C f symbol)
  {q : Nat}

/-- The words that were handed out for instruction number `q`. -/
def wordsOf (q : Nat) : List Int := (S.trace.state q).newWords (S.trace.state (q + 1))

/-- The sections of the function. -/
def sections : List Section :=
  (S.lowering.sections S.site.place).mapIdx fun q code => ⟨code, S.wordsOf q⟩

theorem section_eq {s : Section} (h : S.sections[q]? = some s) :
    (S.lowering.sections S.site.place)[q]? = some s.code ∧ s.words = S.wordsOf q := by
  unfold sections at h
  rw [List.getElem?_mapIdx, Option.map_eq_some_iff] at h
  obtain ⟨code, hcode, rfl⟩ := h
  exact ⟨hcode, rfl⟩

theorem section_of_code {code : List Instruction}
    (h : (S.lowering.sections S.site.place)[q]? = some code) :
    S.sections[q]? = some ⟨code, S.wordsOf q⟩ := by
  unfold sections
  rw [List.getElem?_mapIdx, h]
  rfl

theorem length_sections : S.sections.length = f.numbered.length := by
  unfold sections
  rw [List.length_mapIdx, S.lowering.length_sections]

theorem lt_of_section {s : Section} (h : S.sections[q]? = some s) : q < f.numbered.length := by
  rw [← S.length_sections]
  exact (List.getElem?_eq_some_iff.mp h).1

/-- The sections are the code. -/
theorem code_eq : compiled.codeOf symbol = S.sections.flatMap Section.code := by
  have hcode : compiled.codeOf symbol = S.site.linked.code := S.site.code
  have hsections : S.sections.map Section.code = S.lowering.sections S.site.place := by
    apply List.ext_getElem?
    intro q
    unfold sections
    rw [List.getElem?_map, List.getElem?_mapIdx, Option.map_map]
    exact Option.map_id_apply
  rw [hcode, ← S.lowering.flatten_sections S.site.linkedAs, List.flatMap_def, hsections]

/-- What was handed out for an instruction is used by no other. -/
theorem words_apart {q' : Nat} {s s' : Section} (hs : S.sections[q]? = some s)
    (hs' : S.sections[q']? = some s') {offset : Int} (hoffset : offset ∈ s.words)
    (huses : s'.Uses offset) : q' = q := by
  have hlt := S.lt_of_section hs
  have hlt' := S.lt_of_section hs'
  rw [(S.section_eq hs).2] at hoffset
  obtain ⟨hcode', hwords'⟩ := S.section_eq hs'
  rcases huses with hnew | ⟨i, hi, hnames⟩
  · rw [hwords'] at hnew
    exact S.trace.newWords_unique hlt' hlt hnew hoffset
  · have hq' : f.numbered[q']? = some (f.numbered[q'].1, f.numbered[q'].2) :=
      List.getElem?_eq_getElem hlt'
    exact S.trace.newWords_named hlt hq' hoffset hcode' hi hnames

/-- The word of a value is handed out for no instruction, and named only where the value is dealt with. -/
theorem slot_held {b : Ssa.Block × Nat} {j : Instr} {s : Section} (hq : f.numbered[q]? = some (b, j))
    (hs : S.sections[q]? = some s) {v : ValueId} {slot : Slot}
    (hslot : S.lowering.slots.lookup v = some slot) :
    slot.offset ∉ s.words ∧ ∀ i ∈ s.code, i.Names slot.offset → v ∈ f.valuesAt ⟨b.2⟩ j := by
  obtain ⟨hcode, hwords⟩ := S.section_eq hs
  constructor
  · rw [hwords]
    exact S.trace.slot_not_new (S.lt_of_section hs) hslot
  · intro i hi hnames
    exact S.lowering.slot_named hq hcode hi hslot hnames

/-- **The image of a function.** -/
def image : Image program compiled f symbol where
  slots := S.lowering.slots
  sections := S.sections
  frame := S.frame
  name := (congrArg Symbol.name S.symbol_eq).trans S.lowering.fragment_name
  descriptor := S.descriptor
  code := S.code_eq
  length := by
    rw [S.length_sections, ← f.map_numbered, List.length_map]
  lowered := by
    refine ⟨S.before, S.fragment, S.after, S.site.place, S.site.linked, S.lowering.types, S.lowering.frame,
      S.program_eq, S.lowering.typed, S.lowering.assigned, S.lowered, S.site.linkedAs, ?_, S.site.code,
      S.described⟩
    rw [S.place_eq]
    exact (congrArg Symbol.address S.symbol_eq).symm
  accesses _ _ _ _ hq hs := S.lowering.accesses hq (S.section_eq hs).1
  parameter _ _ h := S.lowering.parameter_slot h
  marked _ _ h := S.site.slot h
  slots_apart _ _ _ _ := S.lowering.slot_injective
  slot_held _ _ _ _ hq hs _ _ hslot := S.slot_held hq hs hslot
  words_apart _ _ _ _ hs hs' _ hoffset huses := S.words_apart hs hs' hoffset huses

end Seat

/-- **Every compiled function has an image** in the module, and what holds of the image of every function
that was lowered and linked holds of all of them. -/
theorem Compilation.images (C : Compilation options program compiled)
    {p : ∀ f symbol, Image program compiled f symbol → Prop}
    (hp : ∀ f symbol (S : Seat C f symbol), p f symbol S.image) :
    List.Forall₂ (fun f symbol => ∃ B : Image program compiled f symbol, p f symbol B) C.order
      compiled.symbols := by
  rw [List.forall₂_iff_get]
  refine ⟨?_, fun k hk hk' => ?_⟩
  · rw [C.assembly.length_symbols, C.length_fragments]
  · obtain ⟨S⟩ := C.seat (List.getElem?_eq_getElem hk) (List.getElem?_eq_getElem hk')
    exact ⟨S.image, hp _ _ S⟩

end Seats
end DisBackend
