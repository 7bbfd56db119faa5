import DisBackend.Proofs.Data.Layout
import DisBackend.Proofs.Faults.Linking
import DisBackend.Proofs.Module.Canonical
import DisBackend.Proofs.Pointers

/-!
# `Proofs.Module.Compiled` — which compiled modules survive their file

A module that was compiled has been checked: its operands can be written, its data is within reach of an
operand and its descriptors are numbered. Nobody checks the stack size, the texts, how much of everything
there is and how large frames and objects are. These are all that can keep a compiled module from being
read back.

## Contents

* `TypeDescriptor.Compact`, `describe_compact` — maps are no longer than they need be;
* `Lowering.callSites_compact`, `Compilation.types_compact` — all descriptors of a module are like that;
* `Translation.hasRoom_final` — module data is within reach;
* `Compilation.storable_iff`, `compile_survives` — what can go wrong.
-/

namespace DisBackend

open Ssa (BlockId Function Instr Program)

/-! ## Maps -/

namespace TypeDescriptor

/-- The map has no byte more than the size asks for. -/
structure Compact (d : TypeDescriptor) : Prop where
  size : 0 ≤ d.size
  map : 64 * (d.map.length : Int) < d.size + 64

end TypeDescriptor

theorem describe_compact {id size base : Int} {words : List Bool} {d : TypeDescriptor}
    (h : describe id size base words = .ok d) (hsize : 0 ≤ size)
    (hwords : wordOffset base words.length ≤ size) : d.Compact := by
  have hlength := length_map_describe h hwords hsize
  obtain ⟨-, rfl⟩ := describe_ok h
  refine ⟨hsize, ?_⟩
  omega

theorem Frame.descriptor_compact {f : Frame} {id : Int} {d : TypeDescriptor}
    (h : f.descriptor id = .ok d) : d.Compact :=
  describe_compact h (Int.le_trans (by decide) (le_wordOffset headerBytes _)) (Int.le_refl _)

/-- Call sites that are new have compact maps. -/
theorem Emits.callSites_compact {env : Env} {source : BlockId} {s s' : State} {i : Instr}
    {lines : List Line} (h : Emits env source s i lines s') (hs : ∀ d ∈ s.callSites, d.Compact) :
    ∀ d ∈ s'.callSites, d.Compact := by
  have hnew {d : TypeDescriptor} (hd : d.Compact) : ∀ d' ∈ s.callSites ++ [d], d'.Compact := by
    intro d' hd'
    rcases List.mem_append.mp hd' with hold | hlast
    · exact hs d' hold
    · obtain rfl := List.mem_singleton.mp hlast
      exact hd
  cases h with
  | new hdescribed _ _ =>
    refine hnew (describe_compact hdescribed (Int.le_trans (by decide) (Int.le_max_right _ _)) ?_)
    rw [List.length_map]
    unfold wordOffset wordBytes
    omega
  | call _ _ _ _ _ hresult =>
    rw [hresult.state_eq]
    exact hs
  | callNative _ _ _ hframe hresult =>
    rw [hresult.state_eq]
    cases hframe with
    | fixed _ _ => exact hs
    | variadic _ hdescribed _ =>
      refine hnew (describe_compact hdescribed (Int.le_trans (by decide) (le_wordOffset headerBytes _)) ?_)
      refine Int.le_of_eq ?_
      rw [List.length_map]
  | jump _ _ hmoved =>
    rw [hmoved.state_eq]
    exact hs
  | branchMoving _ _ _ _ _ _ helse hthen =>
    rw [hthen.state_eq, helse.state_eq]
    exact hs
  | _ => exact hs

theorem Lowering.callSites_compact {f : Function} {c c' : Context} {fragment : Fragment}
    (L : Lowering f c fragment c') : ∀ d ∈ fragment.callSites, d.Compact := by
  rw [L.fragment_callSites]
  exact L.emitted_flat.invariant (P := fun s => ∀ d ∈ s.callSites, d.Compact)
    (fun h hs => h.callSites_compact hs) nofun

/-! ## Module data -/

theorem Emits.hasRoom {env : Env} {source : BlockId} {s s' : State} {i : Instr} {lines : List Line}
    (h : Emits env source s i lines s') (hs : HasRoom s.context.cells) : HasRoom s'.context.cells := by
  have hcells := h.context_eq.1
  cases h with
  | constCell hcell _ hintern =>
    rw [hcells, Instr.cells, hcell]
    exact ((Context.fills_intern _ hs).of_ok hintern).1
  | constNear hnear _ =>
    exact hs
  | _ =>
    rw [hcells]
    exact hs

theorem LowersTo.hasRoom {f : Function} {c c' : Context} {fragment : Fragment}
    (h : LowersTo c f fragment c') (hc : HasRoom c.cells) : HasRoom c'.cells := by
  obtain ⟨L⟩ := lowerFunction_lowering h
  rw [L.context_cells]
  exact L.emitted_flat.invariant (P := fun s => HasRoom s.context.cells) (fun h hs => h.hasRoom hs) hc

/-- **All words of module data are within reach of an operand.** -/
theorem Translation.hasRoom_final {program : Program} (T : Translation program) : HasRoom T.final.cells := by
  obtain ⟨log, hprepare⟩ := T.preparation
  rcases prepare_outcome program log with ⟨hroom, -⟩ | ⟨-, fault, c, herror⟩
  · rw [← T.prepared_eq.1] at hroom
    exact T.lowered.invariant (P := fun c => HasRoom c.cells) (fun h hc => h.hasRoom hc) hroom
  · rw [hprepare] at herror
    cases herror

/-! ## Modules -/

/-- The instructions of a consistent module can be written. -/
theorem Module.instruction_storable {m : Module} (h : m.inconsistency? = none) {i : Instruction}
    (hi : i ∈ m.code) : i.Storable := by
  simp only [inconsistency?, Option.or_eq_none_iff, List.findSome?_eq_none_iff] at h
  obtain ⟨pc, hpc⟩ := List.mem_iff_getElem?.mp hi
  have hfault : m.instructionFault? pc i = none :=
    h.1.1.1.2 (i, pc) (List.mem_zipIdx_iff_getElem?.mpr hpc)
  unfold instructionFault? at hfault
  split at hfault
  · cases hfault
  · next hdirect =>
    split at hfault
    · cases hfault
    · next hrange =>
      push Not at hrange
      exact ⟨hrange, by simpa using hdirect⟩

/-- The functions of the system module have names that can be written. -/
theorem SysFunction.nulFree_name {f : SysFunction} (h : f ∈ SysFunction.all) : NulFree f.name := by
  revert f
  decide +kernel

namespace Compilation

variable {options : CompileOptions} {program : Program} {compiled : CompiledModule}
  (C : Compilation options program compiled)

include C

/-- **The descriptors of a compiled module have compact maps.** -/
theorem types_compact {d : TypeDescriptor} (h : d ∈ compiled.module.types) : d.Compact := by
  rw [C.assembly.types_eq] at h
  rcases List.mem_append.mp h with h | hsite
  · rcases List.mem_cons.mp h with rfl | hframe
    · refine describe_compact C.data_descriptor (Int.le_trans (by decide) (Int.le_max_right _ _)) ?_
      exact Int.le_max_left _ _
    · obtain ⟨k, hk⟩ := List.mem_iff_getElem?.mp hframe
      have hlt : k < C.fragments.length := by
        rw [← C.assembly.frames_length]
        exact (List.getElem?_eq_some_iff.mp hk).1
      obtain ⟨d', hd', hdescriptor⟩ := C.assembly.frame k _ (List.getElem?_eq_getElem hlt)
      rw [hk, Option.some.injEq] at hd'
      subst hd'
      exact Frame.descriptor_compact hdescriptor
  · obtain ⟨l, hl, hsite⟩ := List.mem_flatMap.mp hsite
    obtain ⟨k, hk⟩ := List.mem_iff_getElem?.mp hl
    have hlt : k < C.fragments.length := by
      rw [← C.assembly.linked_length]
      exact (List.getElem?_eq_some_iff.mp hk).1
    have hfragment := List.getElem?_eq_getElem hlt
    obtain ⟨l', hl', hlinked⟩ := C.assembly.fragment k _ hfragment
    rw [hk, Option.some.injEq] at hl'
    subst hl'
    rw [hlinked.callSites, renumber, List.mem_mapIdx] at hsite
    obtain ⟨n, hn, rfl⟩ := hsite
    obtain ⟨f, c, c', -, ⟨L⟩⟩ := C.lowering_of_fragment hfragment
    have hcompact := L.callSites_compact _ (List.getElem_mem hn)
    exact ⟨hcompact.size, hcompact.map⟩

theorem encodable_dataSize : Encodable compiled.module.dataSize := by
  have hroom := C.hasRoom_final
  rw [C.final_cells] at hroom
  rw [C.dataSize_eq]
  unfold HasRoom wordOffset at hroom
  unfold Encodable operandMin wordBytes operandMax at *
  omega

theorem imports_storable : ∀ group ∈ compiled.module.imports, ImportGroup.Storable group := by
  rw [C.imports_eq]
  rintro group hgroup
  obtain rfl := List.mem_singleton.mp hgroup
  rw [C.final_natives]
  refine ⟨?_, fun i hi => ?_⟩
  · have hlength := program.length_natives
    have hcount : SysFunction.all.length = 18 := rfl
    rw [List.length_map]
    unfold operandMax
    omega
  · obtain ⟨f, hf, rfl⟩ := List.mem_map.mp hi
    exact SysFunction.nulFree_name (List.mem_of_find?_eq_some (Ssa.Program.lookup?_of_mem_natives hf))

theorem item_storable (hliterals : ∀ f ∈ program.definitions, ∀ value ∈ f.stringLiterals,
      (value.utf8ByteSize : Int) ≤ operandMax) {item : DataItem} (h : item ∈ compiled.module.data) :
    item.Storable := by
  have hsize := C.encodable_dataSize
  rw [C.dataSize_eq] at hsize
  rw [C.data_eq_items] at h
  obtain ⟨k, cell, hcell, hitem⟩ := mem_itemsFrom.mp h
  refine ⟨?_, ?_⟩
  · have hlt := (List.getElem?_eq_some_iff.mp hcell).1
    rw [Cell.offset_of_item? hitem]
    unfold Encodable operandMin wordOffset wordBytes operandMax at *
    omega
  · cases cell with
    | handle | global => cases hitem
    | long | real =>
      cases hitem
      show ((1 : Nat) : Int) ≤ operandMax
      decide
    | string value =>
      cases hitem
      have hvalue := (program.string_mem_dataCells _).mp (List.mem_of_getElem? hcell)
      rcases program.mem_strings.mp hvalue with rfl | ⟨f, hf, hliteral⟩
      · show (SysFunction.modulePath.utf8ByteSize : Int) ≤ operandMax
        decide
      · exact hliterals f hf value hliteral

theorem literal_storable (h : compiled.module.Storable) {f : Function} (hf : f ∈ program.definitions)
    {value : String} (hvalue : value ∈ f.stringLiterals) : (value.utf8ByteSize : Int) ≤ operandMax := by
  have hmem := (program.string_mem_dataCells C.order).mpr (program.mem_strings.mpr (.inr ⟨f, hf, hvalue⟩))
  obtain ⟨k, hk⟩ := List.mem_iff_getElem?.mp hmem
  have hitem : .string (wordOffset 0 k) value ∈ compiled.module.data := by
    rw [C.data_eq_items]
    exact mem_itemsFrom.mpr ⟨k, _, hk, rfl⟩
  exact (h.data _ hitem).size

theorem descriptor_storable (hcount : (compiled.module.types.length : Int) ≤ operandMax)
    (hsizes : ∀ d ∈ compiled.module.types.tail, d.size ≤ operandMax) {d : TypeDescriptor}
    (h : d ∈ compiled.module.types) : d.Storable := by
  have hcompact := C.types_compact h
  obtain ⟨n, hn⟩ := List.mem_iff_getElem?.mp h
  have hid := Module.id_of_consistent C.assembly.consistent hn
  have hlt := (List.getElem?_eq_some_iff.mp hn).1
  have hsize : d.size ≤ operandMax := by
    have htypes := C.assembly.types_eq
    cases n with
    | zero =>
      -- the size of module data is known to fit
      have hdata := C.encodable_dataSize.2
      rw [htypes] at hn
      cases hn
      rw [(describe_ok C.data_descriptor).2]
      rw [C.assembly.module_eq] at hdata
      exact C.data_size ▸ hdata
    | succ n =>
      refine hsizes d (List.mem_of_getElem? (i := n) ?_)
      rw [List.getElem?_tail]
      exact hn
  have hsize' := hcompact.size
  have hmap := hcompact.map
  refine ⟨?_, ?_, ?_⟩
  · rw [hid]
    unfold Encodable operandMin operandMax at *
    omega
  · unfold Encodable operandMin operandMax at *
    omega
  · unfold operandMax at *
    omega

/-- **A compiled module has room in a file** if what nobody checked has. -/
theorem storable_iff : compiled.module.Storable ↔
    Encodable options.stackSize ∧ NulFree (options.linkOptions program).name ∧ NulFree program.sourcePath ∧
      (compiled.module.code.length : Int) ≤ operandMax ∧ (compiled.module.types.length : Int) ≤ operandMax ∧
      (∀ d ∈ compiled.module.types.tail, d.size ≤ operandMax) ∧
      ∀ f ∈ program.definitions, ∀ value ∈ f.stringLiterals, (value.utf8ByteSize : Int) ≤ operandMax := by
  have hmodule := C.assembly.module_eq
  have hstack : compiled.module.stackSize = options.stackSize := by rw [hmodule]; rfl
  have hname : compiled.module.name = (options.linkOptions program).name := by rw [hmodule]; rfl
  have hpath : compiled.module.sourcePath = program.sourcePath := by rw [hmodule]; rfl
  constructor
  · intro h
    exact ⟨hstack ▸ h.stackSize, hname ▸ h.name, hpath ▸ h.sourcePath, h.code_length, h.types_length,
      fun d hd => (h.types d (List.mem_of_mem_tail hd)).size.2,
      fun f hf value hvalue => C.literal_storable h hf hvalue⟩
  · rintro ⟨hstack', hname', hpath', hcode, htypes, hsizes, hliterals⟩
    have hhandlers : compiled.module.handlers = [] := C.handlers_eq_nil C.assembly.toDraft
    have hflags : compiled.module.flags = Flags.imports := by
      have hflags : compiled.module.flags = moduleFlags compiled.module.handlers := by rw [hmodule]; rfl
      rw [hflags, hhandlers]
      rfl
    have hpc : compiled.module.entryPc = 0 := by rw [hmodule]; rfl
    have htype : compiled.module.entryType = entryFrameId := by rw [hmodule]; rfl
    have hlinks : compiled.module.links = [⟨0, entryFrameId, initSignature, initName⟩] := by
      rw [hmodule]; rfl
    exact {
      flags := by rw [hflags]; decide
      stackSize := hstack ▸ hstack'
      dataSize := C.encodable_dataSize
      entryPc := by rw [hpc]; decide
      entryType := by rw [htype]; decide
      code_length := hcode
      code := fun i hi => Module.instruction_storable C.assembly.consistent hi
      types_length := htypes
      types := fun d hd => C.descriptor_storable htypes hsizes hd
      data := fun item hitem => C.item_storable hliterals hitem
      name := hname ▸ hname'
      links_length := by rw [hlinks]; decide
      links := by rw [hlinks]; decide
      imports_length := by rw [C.imports_eq]; exact (by decide : ((1 : Nat) : Int) ≤ operandMax)
      imports := C.imports_storable
      imports_flag := fun hflag => absurd hflag (by rw [hflags]; decide)
      handlers_length := by rw [hhandlers]; decide
      handlers := by rw [hhandlers]; exact nofun
      handlers_flag := fun _ => hhandlers
      sourcePath := hpath ▸ hpath' }

end Compilation

/-- **What the compiler produces can be written and read back** if and only if the stack size, the texts,
the amounts and the sizes that nobody checks have room in a file. Nothing else about a program matters. -/
theorem compile_survives {options : CompileOptions} {program : Program} {compiled : CompiledModule}
    {log log' : Log} (h : compile options program log = .ok compiled log') :
    (∃ bytes, compiled.module.encode = .ok bytes ∧ Module.decode bytes = .ok compiled.module) ↔
      Encodable options.stackSize ∧
      NulFree (options.name.getD (moduleName program.sourcePath)) ∧ NulFree program.sourcePath ∧
      (compiled.module.code.length : Int) ≤ operandMax ∧ (compiled.module.types.length : Int) ≤ operandMax ∧
      (∀ d ∈ compiled.module.types.tail, d.size ≤ operandMax) ∧
      ∀ f ∈ program.definitions, ∀ value ∈ f.stringLiterals, (value.utf8ByteSize : Int) ≤ operandMax := by
  obtain ⟨C⟩ := compile_compilation h
  have hmagic : compiled.module.magic = unsignedMagic := by rw [C.assembly.module_eq]; rfl
  refine Iff.trans ⟨?_, Module.exists_canonical hmagic⟩ C.storable_iff
  rintro ⟨bytes, hencode, hdecode⟩
  exact Module.storable_of_decode hdecode fun offset element hmem =>
    Module.encodable_offsets hencode (.index offset element) hmem

/-- A program with a NUL in a global, in a function and in a literal, and the largest of the constants. -/
def hollow (sourcePath : String) : Program where
  sourcePath
  globals := [⟨"g\x00", .string⟩]
  functions := [
    ⟨"main", [], none,
      [⟨[.const ⟨0⟩ (.string "a\x00b"), .storeGlobal "g\x00" ⟨0⟩, .const ⟨1⟩ (.int 0x7fffffffffffffff),
        .const ⟨2⟩ (.real ⟨0x7ff8000000000001⟩), .call none "f\x00" [], .ret none]⟩]⟩,
    ⟨"f\x00", [], none, [⟨[.ret none]⟩]⟩]

/-- `hollow` survives its file, and does not if there is a NUL in its source path too. -/
theorem compile_survives_hollow :
    (∃ compiled log, compile {} (hollow "hollow") #[] = .ok compiled log ∧
      ∃ bytes, compiled.module.encode = .ok bytes ∧ Module.decode bytes = .ok compiled.module) ∧
    ∃ compiled log, compile {} (hollow "hol\x00low") #[] = .ok compiled log ∧
      ¬ ∃ bytes, compiled.module.encode = .ok bytes ∧ Module.decode bytes = .ok compiled.module := by
  constructor
  · have hparts : (compiled? (hollow "hollow")).map (fun c =>
        (c.module.code.length, c.module.types.map TypeDescriptor.size)) = some (9, [48, 96, 64]) := by
      decide +kernel
    obtain ⟨compiled, hcompiled, hparts⟩ := Option.map_eq_some_iff.mp hparts
    obtain ⟨hcode, hsizes⟩ := Prod.mk.inj hparts
    obtain ⟨log, h⟩ := compile_of_compiled? hcompiled
    have htypes : compiled.module.types.length = 3 := by
      rw [← List.length_map (f := TypeDescriptor.size), hsizes]
      rfl
    refine ⟨compiled, log, h, (compile_survives h).mpr ⟨by decide, by decide +kernel, by decide +kernel,
      ?_, ?_, fun d hd => ?_, by decide +kernel⟩⟩
    · rw [hcode]
      decide
    · rw [htypes]
      decide
    · have hmem : d.size ∈ ([48, 96, 64] : List Int) := by
        rw [← hsizes]
        exact List.mem_map_of_mem (List.mem_of_mem_tail hd)
      simp only [List.mem_cons, List.not_mem_nil, or_false] at hmem
      unfold operandMax
      omega
  · have hsome : (compiled? (hollow "hol\x00low")).isSome = true := by decide +kernel
    obtain ⟨compiled, hcompiled⟩ := Option.isSome_iff_exists.mp hsome
    obtain ⟨log, h⟩ := compile_of_compiled? hcompiled
    refine ⟨compiled, log, h, fun hsurvives => ?_⟩
    obtain ⟨-, -, hpath, -⟩ := (compile_survives h).mp hsurvives
    exact absurd hpath (by decide +kernel)

end DisBackend
