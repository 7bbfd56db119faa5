import DisBackend.Proofs.Collector.Scope
import DisBackend.Proofs.Descriptor
import DisBackend.Proofs.Lowering.Sections

/-!
# `Proofs.Collector.Site` — a lowered function in a module

A function is lowered to lines, the lines become a fragment, and the linker puts the fragment into a
module. `Site` says what is known of a scope in which the code of a lowered function runs; this module
follows lines and words from the one end to the other.

## Contents

* `Site` — the scope of a lowered function;
* `Line.similar_linked`, `Site.code_at`, `Site.code_of_settled`, `Site.code_of_callee`, `Site.similar` — the
  instruction a line ends up as;
* `Scope.Word`, `Site.word`, `Site.slot` — the words of the frame;
* `Site.cell`, `Site.callSite_marks` — module data and call sites.
-/

namespace DisBackend

open Ssa (BlockId Function Instr Ty ValueId)

/-- The scope `S` is that of the function whose lowering is `L`. -/
structure Site {f : Function} {c c' : Context} {fragment : Fragment} (L : Lowering f c fragment c')
    (S : Scope) where
  place : Place
  linked : LinkedFragment
  linkedAs : fragment.LinkedAs place linked
  code : S.code = linked.code
  result : S.result = f.result
  /-- The frames of the function. -/
  frame : ∃ id, fragment.frame.descriptor id = .ok S.frame
  /-- Module data has the cells that the function uses. -/
  data : ∀ (k : Nat) (cell : Cell), c'.cells[k]? = some cell →
    S.data.Covers 0 (wordOffset 0 k) ∧ S.data.hasPointer (wordOffset 0 k) = cell.isPointer
  /-- Module data has the handle of the system module. -/
  handle : S.data.Covers 0 sysOffset
  /-- The imports that the function uses. -/
  native : ∀ (index : Nat) (g : SysFunction), c'.natives[index]? = some g →
    ∃ group, S.module.imports[0]? = some group ∧ group[index]? = some g.toImport
  /-- The call sites of the function, after the frames of all functions. -/
  callSite : ∀ (k : Nat) (d : TypeDescriptor), fragment.callSites[k]? = some d →
    ∃ d', S.module.descriptor? (k + place.callSiteBase) = some d' ∧ d'.size = d.size ∧ d'.map = d.map
  frames_first : ∀ symbol g, (symbol, g) ∈ S.functions → symbol.frameId < place.callSiteBase
  /-- The functions that it calls. -/
  callee : ∀ name target placement, c.program.function? name = some target →
    target.isDeclaration = false → place.callee? name = some placement →
      (∃ d, S.module.descriptor? placement.frameId = some d ∧
        ∀ (k : Nat) (ty : Ty), target.parameters[k]? = some ty →
          d.Covers headerBytes (wordOffset headerBytes k) ∧
            d.hasPointer (wordOffset headerBytes k) = ty.isPointer) ∧
      ∀ symbol g, (symbol, g) ∈ S.functions → symbol.frameId = placement.frameId → g = target

/-! ## From lines to instructions -/

/-- The operand that a line waits for is a number. -/
def Line.Waits (line : Line) : Prop :=
  match line.fixup with
  | .settled => True
  | .ahead _ | .block _ | .callee .callAddress _ => ∃ v, line.instruction.dst = .imm v
  | .callee .frameId _ => ∃ v, line.instruction.src = .imm v

theorem Operand.similar_plus (amount : Int) (o : Operand) : o.Similar (o.plus amount) := by
  cases o with
  | imm v => exact .inr ⟨v, v + amount, rfl, rfl⟩
  | _ => exact .refl _

theorem Instruction.similar_movedTo (start callSiteBase : Int) (i : Instruction) :
    i.Similar (i.movedTo start callSiteBase) := by
  have hif {c : Prop} [Decidable c] (amount : Int) (o : Operand) :
      o.Similar (if c then o.plus amount else o) := by
    split
    · exact o.similar_plus amount
    · exact .refl o
  exact ⟨rfl, hif _ _, hif _ _, hif _ _⟩

/-- A line and what it becomes in its place differ at most in numbers. -/
theorem Line.similar_linked {starts : List Nat} {place : Place} {n : Nat} {line : Line}
    (hwaits : line.Waits) : line.instruction.Similar (line.linked starts place n) := by
  have hdst {v : Int} (hv : ∃ w, line.instruction.dst = .imm w) :
      line.instruction.Similar { line.instruction with dst := .imm v } := by
    obtain ⟨w, hw⟩ := hv
    exact ⟨rfl, .refl _, .refl _, .inr ⟨w, v, hw, rfl⟩⟩
  unfold Line.Waits at hwaits
  unfold Line.linked
  cases hfixup : line.fixup with
  | settled => exact Instruction.similar_movedTo _ _ _
  | ahead lines =>
    rw [hfixup] at hwaits
    exact (hdst hwaits).trans (Instruction.similar_movedTo _ _ _)
  | block target =>
    rw [hfixup] at hwaits
    exact (hdst hwaits).trans (Instruction.similar_movedTo _ _ _)
  | callee kind name =>
    rw [hfixup] at hwaits
    cases kind with
    | callAddress => exact hdst hwaits
    | frameId =>
      obtain ⟨w, hw⟩ := hwaits
      exact ⟨rfl, .inr ⟨w, _, hw, rfl⟩, .refl _, .refl _⟩

namespace Site

variable {f : Function} {c c' : Context} {fragment : Fragment} {L : Lowering f c fragment c'}
  {S : Scope} (site : Site L S)

include site

/-- **What becomes of a line.** -/
theorem code_at {n : Nat} {line : Line} (h : L.lines[n]? = some line) :
    S.code[n]? = some (line.linked L.starts site.place n) := by
  rw [site.code]
  exact L.linked_at site.linkedAs h

theorem code_of_settled {n : Nat} {line : Line} (h : L.lines[n]? = some line)
    (hsettled : line.fixup = .settled) :
    S.code[n]? = some (line.instruction.movedTo site.place.start site.place.callSiteBase) := by
  rw [site.code_at h]
  unfold Line.linked
  rw [hsettled]

theorem code_of_callee {n : Nat} {line : Line} {kind : PatchKind} {name : String}
    (h : L.lines[n]? = some line) (hcallee : line.fixup = .callee kind name) :
    ∃ placement, site.place.callee? name = some placement ∧
      S.code[n]? = some (kind.fill line.instruction placement) := by
  obtain ⟨placement, hplacement⟩ := L.callee_placed site.linkedAs h hcallee
  refine ⟨placement, hplacement, ?_⟩
  rw [site.code_at h]
  unfold Line.linked
  rw [hcallee]
  show some (kind.fill line.instruction ((site.place.callee? name).getD default)) = _
  rw [hplacement]
  rfl

/-- A line and its instruction differ at most in numbers. -/
theorem similar {n : Nat} {line : Line} {i : Instruction} (h : L.lines[n]? = some line)
    (hwaits : line.Waits) (hi : S.code[n]? = some i) : line.instruction.Similar i := by
  rw [site.code_at h, Option.some.injEq] at hi
  rw [← hi]
  exact Line.similar_linked hwaits

/-- Every instruction of the code comes from a line. -/
theorem line_of_code {n : Nat} {i : Instruction} (hi : S.code[n]? = some i) :
    ∃ line, L.lines[n]? = some line := by
  have hlt := (List.getElem?_eq_some_iff.mp hi).1
  rw [site.code, site.linkedAs.length, L.length_code] at hlt
  exact ⟨_, List.getElem?_eq_getElem hlt⟩

end Site

/-! ## Words -/

/-- There is a word at `offset` of the frame, marked as `pointer` says. -/
def Scope.Word (S : Scope) (offset : Int) (pointer : Bool) : Prop :=
  S.frame.Covers headerBytes offset ∧ S.frame.hasPointer offset = pointer

theorem covers_wordOffset {d : TypeDescriptor} {base : Int} {first k count : Nat}
    (hbase : base = wordBytes * (first : Int)) (hsize : wordOffset base count ≤ d.size)
    (hk : k < count) : d.Covers base (wordOffset base k) := by
  have hlt : wordOffset base k < wordOffset base count := wordOffset_lt_iff.mpr hk
  refine ⟨le_wordOffset base k, by omega, ?_⟩
  rw [hbase]
  unfold wordOffset wordBytes
  omega

/-- The words of a frame are marked as they were handed out. -/
theorem Frame.marks_of_descriptor {frame : Frame} {id : Int} {d : TypeDescriptor}
    (h : frame.descriptor id = .ok d) {k : Nat} {pointer : Bool} (hk : frame.words[k]? = some pointer) :
    d.Covers headerBytes (wordOffset headerBytes k) ∧
      d.hasPointer (wordOffset headerBytes k) = pointer := by
  have hsize : wordOffset headerBytes frame.words.length = d.size := (describe_ok h).2.symm
  exact ⟨covers_wordOffset headerBytes_eq (Int.le_of_eq hsize) (List.getElem?_eq_some_iff.mp hk).1,
    describe_marks h headerBytes_eq hk⟩

namespace Site

variable {f : Function} {c c' : Context} {fragment : Fragment} {L : Lowering f c fragment c'}
  {S : Scope} (site : Site L S)

include site

/-- **The words of the frame** are marked as they were handed out. -/
theorem word {t : State} (ht : t.Grows L.final) {k : Nat} {pointer : Bool}
    (hk : t.frame.words[k]? = some pointer) : S.Word (wordOffset headerBytes k) pointer := by
  obtain ⟨id, hframe⟩ := site.frame
  refine Frame.marks_of_descriptor hframe ?_
  rw [L.fragment_frame]
  exact getElem?_of_prefix ht.frame hk

/-- The word of a value is marked according to its type. -/
theorem slot {v : ValueId} {slot : Slot} (h : L.slots.lookup v = some slot) :
    S.Word slot.offset slot.ty.isPointer := by
  obtain ⟨k, hk, hoffset⟩ := L.slot_at h
  rw [hoffset]
  refine site.word L.grows ?_
  show L.frame.words[k]? = _
  rw [L.words_frame, List.getElem?_map, hk]
  rfl

/-- The words of module data are marked according to what they are for. -/
theorem cell {t : State} (ht : t.Grows L.final) {k : Nat} {cell : Cell}
    (hk : t.context.cells[k]? = some cell) :
    S.data.Covers 0 (wordOffset 0 k) ∧ S.data.hasPointer (wordOffset 0 k) = cell.isPointer :=
  site.data k cell ((ht.context.trans L.context_grows).cell hk)

/-- What a call site describes is marked as it says. -/
theorem callSite_marks {t : State} (ht : t.Grows L.final) {n : Nat} {d d' : TypeDescriptor}
    (hn : t.callSites[n]? = some d) {id size base : Int} {words : List Bool}
    (hd : describe id size base words = .ok d) {first : Nat} (hbase : base = wordBytes * (first : Int))
    (hsize : wordOffset base words.length ≤ size)
    (hd' : S.module.descriptor? (n + site.place.callSiteBase) = some d') {k : Nat} {pointer : Bool}
    (hk : words[k]? = some pointer) :
    d'.Covers base (wordOffset base k) ∧ d'.hasPointer (wordOffset base k) = pointer := by
  have hsite : fragment.callSites[n]? = some d := by
    rw [L.fragment_callSites]
    exact getElem?_of_prefix ht.callSites hn
  obtain ⟨d₁, hd₁, hsize₁, hmap₁⟩ := site.callSite n d hsite
  rw [hd', Option.some.injEq] at hd₁
  subst hd₁
  constructor
  · refine covers_wordOffset hbase ?_ (List.getElem?_eq_some_iff.mp hk).1
    rw [hsize₁, (describe_ok hd).2]
    exact hsize
  · have hsame : d'.hasPointer (wordOffset base k) = d.hasPointer (wordOffset base k) := by
      unfold TypeDescriptor.hasPointer
      rw [hmap₁]
    rw [hsame]
    exact describe_marks hd hbase hk

end Site

end DisBackend
