import DisBackend.Proofs.Collector.Calls
import DisBackend.Proofs.Compilation

/-!
# `Proofs.Collector.Maps` — the maps of a compiled module are sound

Whatever program is compiled, the garbage collector may trust the descriptors of the module. The argument
is that every function that was lowered has a `Site` in the module: its frames are described by the
descriptor that its symbol names, its call sites follow the frames of all functions, and a call finds
the frame of its callee.

## Contents

* `CompiledModule.codeOf`, `CompiledModule.scope` — the code of a function, and its descriptors;
* `Lowering.parameter_word` — the frame of a callee has the caller's arguments;
* `Compilation.exists_site` — every compiled function has a site;
* `compile_maps_sound` — the maps are sound.
-/

namespace DisBackend

open Ssa (Function Program Ty)

/-- The code of the function that a symbol names. -/
def CompiledModule.codeOf (compiled : CompiledModule) (symbol : Symbol) : List Instruction :=
  (compiled.module.code.drop symbol.address.toNat).take symbol.length

/-- The scope of the function that a symbol names, where `functions` are the functions of the module in
the order of their symbols. -/
def CompiledModule.scope (compiled : CompiledModule) (functions : List Function) (symbol : Symbol)
    (f : Function) (frame data : TypeDescriptor) : Scope where
  module := compiled.module
  functions := compiled.symbols.zip functions
  frame
  data
  result := f.result
  code := compiled.codeOf symbol

/-- A parameter has a word where callers put the argument. -/
theorem Lowering.parameter_word {f : Function} {c c' : Context} {fragment : Fragment}
    (L : Lowering f c fragment c') {k : Nat} {ty : Ty} (h : f.parameters[k]? = some ty) :
    fragment.frame.words[k]? = some ty.isPointer := by
  have htypes : L.types[k]? = some (⟨k⟩, ty) := by
    refine getElem?_of_prefix L.wellTyped.parameters ?_
    rw [getElem?_parameterValues, h]
    rfl
  rw [L.fragment_frame]
  refine getElem?_of_prefix L.grows.frame ?_
  show L.frame.words[k]? = _
  rw [L.words_frame, List.getElem?_map, htypes]
  rfl

namespace Assembly

variable {options : LinkOptions} {fragments : List Fragment} {data : DataSegment}
  {compiled : CompiledModule} (A : Assembly options fragments data compiled) {k : Nat}

include A

/-- The code of a function is that of its fragment, linked. -/
theorem codeOf_eq {l : LinkedFragment} (hl : A.linked[k]? = some l) {symbol : Symbol}
    (haddress : symbol.address = startOf fragments k) (hlength : l.code.length = symbol.length) :
    compiled.codeOf symbol = l.code := by
  apply List.ext_getElem?
  intro n
  unfold CompiledModule.codeOf
  rw [haddress, Int.toNat_natCast, ← hlength]
  by_cases hn : n < l.code.length
  · rw [List.getElem?_take_of_lt hn, List.getElem?_drop, A.code_at hl hn]
  · have hle : l.code.length ≤ n := Nat.le_of_not_lt hn
    rw [List.getElem?_take_eq_none hle, List.getElem?_eq_none hle]

end Assembly

namespace Compilation

variable {options : CompileOptions} {program : Program} {compiled : CompiledModule}
  (C : Compilation options program compiled) {k : Nat} {f : Function}

include C

/-- The words of module data are marked by what they are for. -/
theorem marks_data {cell : Cell} (h : C.final.cells[k]? = some cell) :
    C.data.descriptor.Covers 0 (wordOffset 0 k) ∧
      C.data.descriptor.hasPointer (wordOffset 0 k) = cell.isPointer := by
  have hk : C.final.moduleData.words[k]? = some cell.isPointer := by
    show (C.final.cells.map Cell.isPointer)[k]? = _
    rw [List.getElem?_map, h]
    rfl
  refine ⟨covers_wordOffset zero_eq_words ?_ (List.getElem?_eq_some_iff.mp hk).1,
    describe_marks C.data_descriptor zero_eq_words hk⟩
  rw [(describe_ok C.data_descriptor).2]
  exact Int.le_max_left _ _

theorem covers_handle : C.data.descriptor.Covers 0 sysOffset := by
  refine ⟨Int.le_refl _, ?_, rfl⟩
  rw [(describe_ok C.data_descriptor).2]
  exact Int.lt_of_lt_of_le (by decide) (Int.le_max_right _ _)

/-- The symbols stand for the functions, in order. -/
theorem fragment_of_function {symbol : Symbol} {g : Function}
    (h : (symbol, g) ∈ compiled.symbols.zip C.order) :
    ∃ (m : Nat) (fragment : Fragment), C.fragments[m]? = some fragment ∧ C.order[m]? = some g ∧
      symbol.frameId = m + 1 := by
  obtain ⟨m, hm⟩ := List.mem_iff_getElem?.mp h
  obtain ⟨hsymbol, hg⟩ := List.getElem?_zip_eq_some.mp hm
  obtain ⟨fragment, hfragment, rfl⟩ := C.assembly.symbol_eq hsymbol
  exact ⟨m, fragment, hfragment, hg, rfl⟩

/-- The frame of a function has its parameters. -/
theorem marks_parameters {fragment : Fragment} (hfragment : C.fragments[k]? = some fragment)
    (hk : C.order[k]? = some f) :
    ∃ d, compiled.module.descriptor? (k + 1) = some d ∧
      ∀ (m : Nat) (ty : Ty), f.parameters[m]? = some ty →
        d.Covers headerBytes (wordOffset headerBytes m) ∧
          d.hasPointer (wordOffset headerBytes m) = ty.isPointer := by
  obtain ⟨d, hd, hdescriptor⟩ := C.assembly.descriptor?_frame hfragment
  refine ⟨d, hd, fun m ty hm => ?_⟩
  obtain ⟨fragment', _, _, hfragment', -, -, ⟨L⟩⟩ := C.lowering hk
  rw [hfragment, Option.some.injEq] at hfragment'
  subst hfragment'
  exact Frame.marks_of_descriptor hdescriptor (L.parameter_word hm)

/-- A frame id stands for one function. -/
theorem function_eq (hk : C.order[k]? = some f) {symbol : Symbol} {g : Function}
    (hmem : (symbol, g) ∈ compiled.symbols.zip C.order) (hid : symbol.frameId = k + 1) : g = f := by
  obtain ⟨m, -, -, hg, hm⟩ := C.fragment_of_function hmem
  have hsame : m = k := by omega
  rw [hsame, hk, Option.some.injEq] at hg
  exact hg.symm

/-- **Every compiled function has a site,** which is where the linker put the function. -/
theorem exists_site {fragment : Fragment} {c c' : Context} (hfragment : C.fragments[k]? = some fragment)
    (hprogram : c.program = program) (hgrows : c'.Grows C.final) (L : Lowering f c fragment c')
    {symbol : Symbol} (hsymbol : compiled.symbols[k]? = some symbol) {frame : TypeDescriptor}
    (hframe : compiled.module.descriptor? symbol.frameId = some frame) :
    ∃ site : Site L (compiled.scope C.order symbol f frame C.data.descriptor),
      site.place = ⟨startOf C.fragments k, callSiteStart C.fragments k, calleeOf? C.fragments⟩ := by
  obtain ⟨l, hl, hlinked⟩ := C.assembly.fragment k fragment hfragment
  rw [C.assembly.symbol hfragment, Option.some.injEq] at hsymbol
  subst hsymbol
  obtain ⟨d, hd, hdescriptor⟩ := C.assembly.descriptor?_frame hfragment
  rw [hframe, Option.some.injEq] at hd
  subst hd
  refine ⟨{
    place := ⟨startOf C.fragments k, callSiteStart C.fragments k, calleeOf? C.fragments⟩
    linked := l
    linkedAs := hlinked
    code := C.assembly.codeOf_eq hl rfl hlinked.length
    result := rfl
    frame := ⟨_, hdescriptor⟩
    data := fun m cell hm => C.marks_data (hgrows.cell hm)
    handle := C.covers_handle
    native := fun index g hg => ?_
    callSite := fun m d' hd' => ?_
    frames_first := fun symbol' g hmem => ?_
    callee := fun name target placement hfound hbody hplacement => ?_ }, rfl⟩
  · refine ⟨C.data.imports, ?_, ?_⟩
    · show compiled.module.imports[0]? = _
      rw [C.assembly.module_eq]
      rfl
    · rw [C.data_imports, List.getElem?_map, getElem?_of_prefix hgrows.natives hg]
      rfl
  · -- the id moves by the number of descriptors before the fragment's own
    have hsite := Module.descriptor?_of_consistent C.assembly.consistent
      (C.assembly.callSite_at hfragment hd')
    have hid : ((callSiteStart C.fragments k + m : Nat) : Int) = m + callSiteStart C.fragments k := by omega
    rw [hid] at hsite
    exact ⟨_, hsite, rfl, rfl⟩
  · obtain ⟨m, fragment', hm, -, hid⟩ := C.fragment_of_function hmem
    have hlt := (List.getElem?_eq_some_iff.mp hm).1
    show symbol'.frameId < (callSiteStart C.fragments k : Nat)
    unfold callSiteStart
    omega
  · rw [hprogram] at hfound
    obtain ⟨j, g, hg, hname, rfl, -⟩ := calleeOf?_ok hplacement
    have htarget := C.callee_eq hfound hbody hg hname
    exact ⟨C.marks_parameters hg htarget, fun symbol' g' hmem hid => C.function_eq htarget hmem hid⟩

theorem site {fragment : Fragment} {c c' : Context} (hfragment : C.fragments[k]? = some fragment)
    (hprogram : c.program = program) (hgrows : c'.Grows C.final) (L : Lowering f c fragment c')
    {symbol : Symbol} (hsymbol : compiled.symbols[k]? = some symbol) {frame : TypeDescriptor}
    (hframe : compiled.module.descriptor? symbol.frameId = some frame) :
    Nonempty (Site L (compiled.scope C.order symbol f frame C.data.descriptor)) := by
  obtain ⟨site, -⟩ := C.exists_site hfragment hprogram hgrows L hsymbol hframe
  exact ⟨site⟩

end Compilation

/-- **The maps of a compiled module are sound.** There is a symbol for each function that is compiled, in
order, and a descriptor of module data and of the function's frame, with which each instruction of the
function's code agrees. -/
theorem compile_maps_sound {options : CompileOptions} {program : Program} {compiled : CompiledModule}
    {log log' : Log} (h : compile options program log = .ok compiled log') :
    ∃ order data, program.compileOrder? = some order ∧ compiled.symbols.length = order.length ∧
      compiled.module.descriptor? 0 = some data ∧ data.size = compiled.module.dataSize ∧
      ∀ (k : Nat) (f : Function) (symbol : Symbol), order[k]? = some f →
        compiled.symbols[k]? = some symbol →
        symbol.name = f.name ∧ (compiled.codeOf symbol).length = symbol.length ∧
        ∃ frame, compiled.module.descriptor? symbol.frameId = some frame ∧
          ∀ (n : Nat) (i : Instruction), (compiled.codeOf symbol)[n]? = some i →
            (compiled.scope order symbol f frame data).Sound n i := by
  obtain ⟨C⟩ := compile_compilation h
  have hdata : compiled.module.types[0]? = some C.data.descriptor := by
    rw [C.assembly.types_eq]
    rfl
  refine ⟨C.order, C.data.descriptor, C.selected, ?_,
    Module.descriptor?_of_consistent C.assembly.consistent hdata, ?_, fun k f symbol hk hsymbol => ?_⟩
  · rw [C.assembly.length_symbols, C.length_fragments]
  · rw [(describe_ok C.data_descriptor).2, ← C.data_size, C.assembly.module_eq]
    rfl
  · -- the function was lowered in a context that the final one extends, so its site is in the module
    obtain ⟨fragment, c, c', hfragment, hprogram, hgrows, ⟨L⟩⟩ := C.lowering hk
    obtain ⟨frame, hframe, -⟩ := C.assembly.descriptor?_frame hfragment
    obtain ⟨fragment', hfragment', rfl⟩ := C.assembly.symbol_eq hsymbol
    rw [hfragment, Option.some.injEq] at hfragment'
    subst hfragment'
    obtain ⟨site⟩ := C.site hfragment hprogram hgrows L hsymbol hframe
    refine ⟨L.fragment_name, ?_, frame, hframe, fun n i hi => site.sound hi⟩
    obtain ⟨l, hl, hlinked⟩ := C.assembly.fragment k fragment hfragment
    rw [C.assembly.codeOf_eq hl rfl hlinked.length]
    exact hlinked.length

/-! ## A program with all kinds of words -/

/-- Joins a string with a field of an object or with itself, whichever is greater. -/
def shelfLabel : Function where
  name := "label"
  parameters := [.object, .string]
  result := some .string
  blocks := [
    ⟨[.loadField ⟨2⟩ .string ⟨0⟩ 1, .compare ⟨3⟩ .less ⟨1⟩ ⟨2⟩, .branch ⟨3⟩ ⟨1⟩ ⟨2⟩]⟩,
    ⟨[.jump ⟨2⟩]⟩,
    ⟨[.phi ⟨4⟩ .string [⟨⟨0⟩, ⟨1⟩⟩, ⟨⟨1⟩, ⟨2⟩⟩], .math ⟨5⟩ .add ⟨4⟩ ⟨1⟩, .ret (some ⟨5⟩)]⟩]

/-- Makes an object, and calls a function, a system function that takes any number of arguments and one
that takes two. -/
def shelfMain : Function where
  name := "main"
  parameters := []
  result := none
  blocks := [
    ⟨[.const ⟨0⟩ (.int 3), .const ⟨1⟩ (.string "a"), .const ⟨2⟩ (.string "b"),
      .new ⟨3⟩ [.int, .string], .storeField ⟨3⟩ 0 ⟨0⟩, .storeField ⟨3⟩ 1 ⟨1⟩,
      .call (some ⟨4⟩) "label" [⟨3⟩, ⟨2⟩], .callNative none "print" [⟨4⟩, ⟨0⟩],
      .callNative (some ⟨5⟩) "open" [⟨4⟩, ⟨0⟩], .storeGlobal "last" ⟨4⟩, .ret none]⟩]

/-- A program with objects, strings, calls and a global. -/
def shelf : Program where
  sourcePath := "shelf"
  globals := [⟨"last", .string⟩]
  functions := [shelfLabel, shelfMain]

def shelfSymbols : List Symbol := [⟨"main", 1, 1, 23⟩, ⟨"label", 2, 24, 13⟩]

def shelfTypes : List TypeDescriptor :=
  [⟨0, 40, [0xf8]⟩, ⟨1, 144, [0x00, 0x7c, 0x00]⟩, ⟨2, 112, [0x00, 0xec]⟩, ⟨3, 16, [0x40]⟩,
    ⟨4, 80, [0x00, 0x80]⟩]

/-- The module that a program is compiled to, if it is. -/
def compiled? (program : Program) : Option CompiledModule :=
  match compile {} program #[] with
  | .ok compiled _ => some compiled
  | .error .. => none

theorem compile_of_compiled? {program : Program} {compiled : CompiledModule}
    (h : compiled? program = some compiled) : ∃ log, compile {} program #[] = .ok compiled log := by
  unfold compiled? at h
  split at h
  · next log hcompile =>
    cases h
    exact ⟨log, hcompile⟩
  · cases h

theorem compile_shelf : ∃ compiled log, compile {} shelf #[] = .ok compiled log ∧
    compiled.symbols = shelfSymbols ∧ compiled.module.types = shelfTypes := by
  have hparts : (compiled? shelf).map (fun c => (c.symbols, c.module.types))
      = some (shelfSymbols, shelfTypes) := by decide +kernel
  obtain ⟨compiled, hcompiled, hsame⟩ := Option.map_eq_some_iff.mp hparts
  obtain ⟨log, hlog⟩ := compile_of_compiled? hcompiled
  rw [Prod.mk.injEq] at hsame
  exact ⟨compiled, log, hlog, hsame⟩

theorem compile_maps_sound_shelf : ∃ compiled log, compile {} shelf #[] = .ok compiled log ∧
    compiled.symbols = shelfSymbols ∧ compiled.module.types = shelfTypes ∧
    compiled.module.dataSize = 40 ∧
    (∀ (n : Nat) (i : Instruction), (compiled.codeOf ⟨"main", 1, 1, 23⟩)[n]? = some i →
      (compiled.scope [shelfMain, shelfLabel] ⟨"main", 1, 1, 23⟩ shelfMain
        ⟨1, 144, [0x00, 0x7c, 0x00]⟩ ⟨0, 40, [0xf8]⟩).Sound n i) ∧
    (∀ (n : Nat) (i : Instruction), (compiled.codeOf ⟨"label", 2, 24, 13⟩)[n]? = some i →
      (compiled.scope [shelfMain, shelfLabel] ⟨"label", 2, 24, 13⟩ shelfLabel
        ⟨2, 112, [0x00, 0xec]⟩ ⟨0, 40, [0xf8]⟩).Sound n i) := by
  obtain ⟨compiled, log, h, hsymbols, htypes⟩ := compile_shelf
  obtain ⟨order, data, horder, -, hdata, hsize, hsound⟩ := compile_maps_sound h
  have horder' : shelf.compileOrder? = some [shelfMain, shelfLabel] := by decide +kernel
  rw [horder', Option.some.injEq] at horder
  subst horder
  have hdescriptor (id : Int) : compiled.module.descriptor? id = shelfTypes.find? (·.id == id) := by
    unfold Module.descriptor?
    rw [htypes]
  rw [hdescriptor] at hdata
  cases hdata
  obtain ⟨-, -, frame, hframe, hmain⟩ := hsound 0 shelfMain ⟨"main", 1, 1, 23⟩ rfl (by rw [hsymbols]; rfl)
  obtain ⟨-, -, frame', hframe', hlabel⟩ :=
    hsound 1 shelfLabel ⟨"label", 2, 24, 13⟩ rfl (by rw [hsymbols]; rfl)
  rw [hdescriptor] at hframe hframe'
  cases hframe
  cases hframe'
  exact ⟨compiled, log, h, hsymbols, htypes, hsize.symm, hmain, hlabel⟩

end DisBackend
