import DisBackend.Proofs.Control.Integrity
import DisBackend.Proofs.Faults.Stops

/-!
# `Proofs.Faults.Linking` — why linking stops

The linker checks what it is given: patches are of instructions of the fragment and no two of the same,
a patched operand is a number, a callee has a place, and the parts of the module fit together. Fragments
that come from lowering the functions of a program pass all these checks, so that linking them stops only
at a limit of the machine.

## Contents

* `checkPatches_of_increasing`, `patchesOf_increasing` — patches in their places;
* `Lowering.stopsFor_linkFragment` — a lowered function can be linked;
* `Module.Coherent`, `Module.Coherent.inconsistency?_eq` — parts of a module that fit together;
* `Translation.coherent` — the modules that are put together;
* `Translation.stopsFor_assemble` — the whole.
-/

namespace DisBackend

open Ssa (Function Instr Program Ty ValueId)

/-! ## Patches -/

/-- Patches of different instructions of a fragment pass the check. -/
theorem checkPatches_of_increasing {name : String} {length : Nat} {seen : List Nat} {patches : List Patch}
    (hincreasing : patches.Pairwise (·.instruction < ·.instruction))
    (hrange : ∀ patch ∈ patches, patch.instruction < length)
    (hseen : ∀ patch ∈ patches, patch.instruction ∉ seen) :
    checkPatches name length seen patches = .ok () := by
  induction patches generalizing seen with
  | nil => rfl
  | cons p rest ih =>
    obtain ⟨hfirst, hrest⟩ := List.pairwise_cons.mp hincreasing
    have hp := hrange p List.mem_cons_self
    have hnew := hseen p List.mem_cons_self
    unfold checkPatches
    rw [if_neg (Nat.not_le.mpr hp), if_neg (by simpa using hnew)]
    refine ih hrest (fun q hq => hrange q (List.mem_cons_of_mem _ hq)) fun q hq => ?_
    rw [List.mem_cons, not_or]
    exact ⟨Nat.ne_of_gt (hfirst q hq), hseen q (List.mem_cons_of_mem _ hq)⟩

/-- The patches of lines are in the order of the lines. -/
theorem patchesOf_increasing (lines : List Line) :
    (patchesOf lines).Pairwise (·.instruction < ·.instruction) := by
  unfold patchesOf
  rw [List.pairwise_filterMap]
  have hnumbers : lines.zipIdx.Pairwise (·.2 < ·.2) := by
    rw [← List.pairwise_map, List.zipIdx_map_snd]
    exact List.pairwise_lt_range'
  have hnumber {p : Line × Nat} {patch : Patch} (h : p.1.patch? p.2 = some patch) :
      patch.instruction = p.2 := by
    unfold Line.patch? at h
    split at h
    · cases h
      rfl
    · cases h
  refine hnumbers.imp fun {p q} hlt patch hpatch patch' hpatch' => ?_
  rw [hnumber hpatch, hnumber hpatch']
  exact hlt

/-! ## One fragment -/

section Link

variable {f : Fragment} {place : Place} {log : Log}

theorem failsFor_shift (amount : Int) (operand : Operand) :
    FailsFor Fault.IsLimit (operand.shift amount) := by
  cases operand with
  | imm value => exact .map (failsFor_checkedAdd _ _)
  | _ => exact .ok

theorem failsFor_relocate (start callSiteBase : Int) (i : Instruction) :
    FailsFor Fault.IsLimit (i.relocate start callSiteBase) := by
  have hshift {α : Type} {c : Prop} [Decidable c] (amount : Int) (operand : Operand)
      {k : Operand → Except Fault α} (hk : ∀ o, FailsFor Fault.IsLimit (k o)) :
      FailsFor Fault.IsLimit (if c then operand.shift amount >>= k else pure operand >>= k) :=
    .ite (fun _ => .bind (failsFor_shift _ _) fun o _ => hk o) fun _ => .bind .pure fun o _ => hk o
  exact hshift _ _ fun src => hshift _ _ fun mid => hshift _ _ fun dst => .pure

theorem stopsFor_linkCode {index : Nat} {is : List Instruction}
    (h : ∀ (n : Nat) (i : Instruction), is[n]? = some i →
      ∀ log, StopsFor Fault.IsLimit (linkInstruction f place (index + n) i) log) :
    StopsFor Fault.IsLimit (linkCode f place index is) log := by
  induction is generalizing index log with
  | nil => exact .pure
  | cons i is ih =>
    refine .bind (h 0 i rfl log) fun i' log' _ => .bind (ih fun n j hj => ?_) fun _ _ _ => .pure
    have hnext := h (n + 1) j hj
    rw [show index + (n + 1) = index + 1 + n by omega] at hnext
    exact hnext

end Link

namespace Lowering

variable {f : Function} {c c' : Context} {fragment : Fragment} (L : Lowering f c fragment c')
  {place : Place}

include L

/-- A patch is of an instruction that waits for a function which the program defines, and the operand to be
filled in is a number. -/
theorem patch_cases {patch : Patch} (hpatch : patch ∈ fragment.patches) :
    (∃ target, c.program.function? patch.callee = some target ∧ target.isDeclaration = false) ∧
      ∃ i, fragment.code[patch.instruction]? = some i ∧
        ∀ placement, patch.kind.apply i placement = .ok (patch.kind.fill i placement) := by
  obtain ⟨n, kind, name⟩ := patch
  obtain ⟨line, hline, hfixup⟩ := L.mem_patches_iff.mp hpatch
  obtain ⟨T⟩ := L.trace
  obtain ⟨q, r, b, j, lines, hq, hpiece, hr, -⟩ := L.piece_of_line hline
  obtain ⟨i, hi, hresolve⟩ := L.code_of_line hline
  have hlt := (List.getElem?_eq_some_iff.mp hq).1
  have hgrows := T.grows (Nat.zero_le q) (Nat.le_of_lt hlt)
  rw [T.first] at hgrows
  have hdefined {name : String} (h : CallsOf (T.state q) j name) :
      ∃ target, c.program.function? name = some target ∧ target.isDeclaration = false := by
    obtain ⟨-, target, hfound, hbody⟩ := h
    rw [hgrows.context.program] at hfound
    exact ⟨target, hfound, hbody⟩
  cases (T.emits q b j lines hq hpiece).form hr with
  | frame hcalls =>
    cases hfixup
    cases hresolve
    exact ⟨hdefined hcalls, _, hi, fun placement => rfl⟩
  | call hcalls =>
    cases hfixup
    cases hresolve
    exact ⟨hdefined hcalls, _, hi, fun placement => rfl⟩
  | plain | site | ahead | block => cases hfixup

/-- **A lowered function can be linked,** unless an address overflows. -/
theorem stopsFor_linkFragment (hplaced : ∀ name target, c.program.function? name = some target →
      target.isDeclaration = false → ∃ placement, place.callee? name = some placement) {log : Log} :
    StopsFor Fault.IsLimit (linkFragment fragment place) log := by
  have hpatches : checkPatches fragment.name fragment.code.length [] fragment.patches = .ok () := by
    refine checkPatches_of_increasing ?_ (fun patch hpatch => ?_) fun _ _ => List.not_mem_nil
    · rw [L.fragment_patches]
      exact patchesOf_increasing _
    · obtain ⟨-, i, hi, -⟩ := L.patch_cases hpatch
      exact (List.getElem?_eq_some_iff.mp hi).1
  have hcode (n : Nat) (i : Instruction) (hi : fragment.code[n]? = some i) (log : Log) :
      StopsFor Fault.IsLimit (linkInstruction fragment place n i) log := by
    unfold linkInstruction
    cases hfind : fragment.patches.find? (·.instruction == n) with
    | none => exact .liftResult (failsFor_relocate _ _ _)
    | some patch =>
      -- the callee is defined, so it has a place, and the operand is a number
      obtain ⟨⟨target, hfound, hbody⟩, i', hi', happly⟩ :=
        L.patch_cases (List.mem_of_find?_eq_some hfind)
      have hnumber : patch.instruction = n := by simpa using List.find?_some hfind
      rw [hnumber, hi, Option.some.injEq] at hi'
      subst hi'
      obtain ⟨placement, hplacement⟩ := hplaced _ target hfound hbody
      simp only [hplacement, happly]
      exact .bind .modify fun _ _ _ => .liftResult .ok
  refine .bind (.liftResult ?_) fun _ _ _ => .bind (stopsFor_linkCode fun n i hi log => ?_) fun _ _ _ => ?_
  · rw [hpatches]
    exact .ok
  · rw [Nat.zero_add]
    exact hcode n i hi log
  · rw [L.fragment_handlers]
    exact .bind (.liftResult (.mapM nofun)) fun _ _ _ => .pure

end Lowering

theorem stopsFor_linkFragments {callee? : String → Option Placement} {placed : List (Fragment × Symbol)}
    (h : ∀ p ∈ placed, ∀ base log,
      StopsFor Fault.IsLimit (linkFragment p.1 ⟨p.2.address, base, callee?⟩) log)
    {base : Int} {log : Log} : StopsFor Fault.IsLimit (linkFragments callee? base placed) log := by
  induction placed generalizing base log with
  | nil => exact .pure
  | cons p rest ih =>
    refine .bind (h p List.mem_cons_self _ _) fun _ _ _ => .bind (ih fun q hq => ?_) fun _ _ _ => .pure
    exact h q (List.mem_cons_of_mem _ hq)

theorem failsFor_frameDescriptors (placed : List (Fragment × Symbol)) :
    FailsFor Fault.IsLimit (frameDescriptors placed) :=
  .mapM fun _ _ => failsFor_describe _ _ _ headerBytes_eq

/-! ## The parts of a module -/

/-- The parts of a module fit together, whatever the sizes of its operands. -/
structure Module.Coherent (m : Module) : Prop where
  nonempty : m.code ≠ []
  numbered : ∀ (n : Nat) (d : TypeDescriptor), m.types[n]? = some d → d.id = n
  dataSize : m.describedDataSize = m.dataSize
  entry : m.IsCodeAddress m.entryPc ∧ m.IsTypeId m.entryType
  links : ∀ l ∈ m.links, m.IsCodeAddress l.pc ∧ m.IsTypeId l.typeId
  direct : ∀ i ∈ m.code, i.mid.isIndirect = false
  targets : ∀ i ∈ m.code, ∀ target, i.branchTarget? = some target → m.IsCodeAddress target
  descriptors : ∀ i ∈ m.code, ∀ id, i.typeId? = some id → m.IsTypeId id
  handlers : m.handlers = []
  items : ∀ item ∈ m.data, m.itemFits item = true

namespace Module.Coherent

variable {m : Module} (h : m.Coherent)

include h

/-- All that can be wrong with an instruction is that it cannot be encoded. -/
theorem instructionFault?_eq {pc : Nat} {i : Instruction} (hi : i ∈ m.code) {cause : Inconsistency}
    (hfault : m.instructionFault? pc i = some cause) : cause = .operandOutOfRange pc i ∧
      ∃ operand ∈ i.operands, ∃ value ∈ operand.values, ¬ Encodable value := by
  have hdescriptor : m.descriptorFault? pc i = none := by
    unfold descriptorFault?
    cases hid : i.typeId? with
    | none => rfl
    | some id => exact if_pos (h.descriptors i hi id hid)
  unfold instructionFault? at hfault
  rw [h.direct i hi, if_neg Bool.false_ne_true] at hfault
  by_cases hrange : ∃ operand ∈ i.operands, ∃ value ∈ operand.values, ¬ Encodable value
  · rw [if_pos hrange] at hfault
    cases hfault
    exact ⟨rfl, hrange⟩
  · rw [if_neg hrange] at hfault
    cases htarget : i.branchTarget? with
    | none =>
      simp only [htarget, hdescriptor] at hfault
      cases hfault
    | some target =>
      simp only [htarget, if_pos (h.targets i hi target htarget), hdescriptor] at hfault
      cases hfault

/-- **The parts of a module that fit together disagree in nothing** but the sizes of operands. -/
theorem inconsistency?_eq {cause : Inconsistency} (hfault : m.inconsistency? = some cause) :
    ∃ pc, ∃ i ∈ m.code, cause = .operandOutOfRange pc i ∧
      ∃ operand ∈ i.operands, ∃ value ∈ operand.values, ¬ Encodable value := by
  have htypes : (m.types.zipIdx.findSome? fun p =>
      if p.1.id = p.2 then none else some (Inconsistency.descriptorOutOfPlace p.2 p.1.id)) = none := by
    refine List.findSome?_eq_none_iff.mpr fun p hp => ?_
    exact if_pos (h.numbered p.2 p.1 (List.mem_zipIdx_iff_getElem?.mp hp))
  have hlinks : (m.links.findSome? fun l =>
      if m.IsCodeAddress l.pc ∧ m.IsTypeId l.typeId then none
      else some (Inconsistency.linkOutOfRange l.name l.pc l.typeId)) = none :=
    List.findSome?_eq_none_iff.mpr fun l hl => if_pos (h.links l hl)
  have hitems : (m.data.findSome? fun item =>
      if m.itemFits item then none else some (Inconsistency.dataOutOfRange item)) = none :=
    List.findSome?_eq_none_iff.mpr fun item hitem => if_pos (h.items item hitem)
  have hcode : (m.code.zipIdx.findSome? fun p => m.instructionFault? p.2 p.1) = some cause := by
    unfold inconsistency? at hfault
    rw [if_neg h.nonempty, htypes, if_pos h.dataSize, if_pos h.entry.1, if_pos h.entry.2, hlinks, hitems,
      h.handlers, if_neg (fun hne => hne.1 rfl)] at hfault
    simpa using hfault
  obtain ⟨⟨i, pc⟩, hmem, hfault⟩ := List.exists_of_findSome?_eq_some hcode
  have hi : i ∈ m.code := List.mem_of_getElem? (List.mem_zipIdx_iff_getElem?.mp hmem)
  exact ⟨pc, i, hi, h.instructionFault?_eq hi hfault⟩

end Module.Coherent

/-! ## The modules that are put together -/

/-- The descriptors of a module are numbered. -/
theorem Draft.id_of_types {options : LinkOptions} {fragments : List Fragment} {data : DataSegment}
    {compiled : CompiledModule} (D : Draft options fragments data compiled) (hdata : data.descriptor.id = 0)
    {n : Nat} {d : TypeDescriptor} (hd : compiled.module.types[n]? = some d) : d.id = n := by
  have htypes := D.types_eq
  cases n with
  | zero =>
    rw [htypes] at hd
    cases hd
    exact hdata
  | succ n =>
    by_cases hn : n < fragments.length
    · obtain ⟨d', hd', hdescriptor⟩ := D.frame_at (List.getElem?_eq_getElem hn)
      rw [hd, Option.some.injEq] at hd'
      subst hd'
      exact (describe_ok hdescriptor).1
    · -- it is a call site of one of the fragments
      have hsites : (D.linked.map LinkedFragment.callSites).flatten[n - fragments.length]? = some d := by
        rw [htypes, List.cons_append, List.getElem?_cons_succ,
          List.getElem?_append_right (by rw [D.frames_length]; omega), D.frames_length] at hd
        rw [← List.flatMap_def]
        exact hd
      obtain ⟨k, r, sites, hk, hr, hindex⟩ := exists_of_getElem?_flatten hsites
      rw [List.getElem?_map, Option.map_eq_some_iff] at hk
      obtain ⟨l, hl, rfl⟩ := hk
      have hlt : k < fragments.length := by
        rw [← D.linked_length]
        exact (List.getElem?_eq_some_iff.mp hl).1
      obtain ⟨l', hl', hlinked⟩ := D.fragment k _ (List.getElem?_eq_getElem hlt)
      rw [hl, Option.some.injEq] at hl'
      subst hl'
      rw [hlinked.callSites, renumber, List.getElem?_mapIdx, Option.map_eq_some_iff] at hr
      obtain ⟨d', -, rfl⟩ := hr
      have hbefore : ((D.linked.map LinkedFragment.callSites).take k).flatten.length
          = callSitesBefore fragments k := by
        rw [← D.callSitesBefore_eq k, ← List.map_take, List.length_flatten, List.map_map]
        rfl
      show (callSiteStart fragments k : Int) + r = (n + 1 : Nat)
      unfold callSiteStart
      omega

namespace Translation

variable {program : Program} (T : Translation program) {options : LinkOptions} {compiled : CompiledModule}

theorem fragments_ne_nil : T.fragments ≠ [] := by
  obtain ⟨entry, rest, horder, -⟩ := Ssa.Program.compileOrder?_head T.selected
  intro hempty
  have hlength := T.length_fragments
  rw [hempty, horder] at hlength
  cases hlength

/-- No function has exception handlers. -/
theorem handlers_eq_nil (D : Draft options T.fragments T.data compiled) :
    compiled.module.handlers = [] := by
  rw [D.handlers_eq, List.flatten_eq_nil_iff]
  intro hs hmem
  obtain ⟨k, hk, rfl⟩ := List.mem_mapIdx.mp hmem
  obtain ⟨f, c, c', -, ⟨L⟩⟩ := T.lowering_of_fragment (List.getElem?_eq_getElem hk)
  rw [L.fragment_handlers]
  rfl

/-- Data items are those of cells, and lie in module data. -/
theorem item_fits (D : Draft options T.fragments T.data compiled) {item : DataItem}
    (hitem : item ∈ compiled.module.data) : compiled.module.itemFits item = true := by
  have hsize : compiled.module.dataSize = T.final.moduleData.size := by
    rw [D.module_eq, ← T.data_size]
    rfl
  rw [D.module_eq] at hitem
  have hmem : item ∈ T.final.items := by
    rw [← show T.data.items = T.final.items by rw [T.data_eq]]
    exact hitem
  obtain ⟨⟨cell, k⟩, hcell, hitem⟩ := List.mem_filterMap.mp hmem
  have hk := List.mem_zipIdx_iff_getElem?.mp hcell
  have hoffset : item.offset = wordOffset 0 k := by
    cases cell with
    | string | long | real =>
      cases hitem
      rfl
    | handle | global => cases hitem
  have hlt : wordOffset 0 k < T.final.moduleData.size := by
    have hcount : k < T.final.moduleData.words.length := by
      show k < (T.final.cells.map Cell.isPointer).length
      rw [List.length_map]
      exact (List.getElem?_eq_some_iff.mp hk).1
    exact Int.lt_of_lt_of_le (wordOffset_lt_iff.mpr hcount) (Int.le_max_left _ _)
  unfold Module.itemFits
  rw [decide_eq_true_eq, hsize, hoffset]
  exact .inr ⟨le_wordOffset 0 k, hlt⟩

/-- Every descriptor that an instruction names exists. -/
theorem typeId_lt (D : Draft options T.fragments T.data compiled) {i : Instruction}
    (hi : i ∈ compiled.module.code) {id : Int} (hid : i.typeId? = some id) :
    compiled.module.IsTypeId id := by
  have hexists {n : Nat} {d : TypeDescriptor} (hd : compiled.module.types[n]? = some d) {id : Int}
      (hid : id = n) : compiled.module.IsTypeId id := by
    have hlt := (List.getElem?_eq_some_iff.mp hd).1
    unfold Module.IsTypeId
    omega
  rcases T.aims D hi with rfl | rfl | ⟨k, fragment, hk, haims⟩
  · cases hid
  · cases hid
  · rcases haims.descriptor id hid with ⟨n, hn, hsite⟩ | ⟨name, placement, hplacement, rfl⟩
    · refine hexists (D.callSite_at hk (List.getElem?_eq_getElem hn)) ?_
      rw [hsite]
      show (n : Int) + (callSiteStart T.fragments k : Nat) = _
      omega
    · obtain ⟨j, callee, hj, -, rfl, -⟩ := calleeOf?_ok hplacement
      obtain ⟨d, hd, -⟩ := D.frame_at hj
      exact hexists hd rfl

/-- **The parts of a module that is put together from the functions of a program fit together.** -/
theorem coherent (D : Draft options T.fragments T.data compiled) : compiled.module.Coherent := by
  have hstart := D.startOf_le_length
  have hpositive : 0 < startOf T.fragments T.fragments.length := by
    unfold startOf
    omega
  have hcount : 0 < T.fragments.length := List.length_pos_of_ne_nil T.fragments_ne_nil
  have hpc : compiled.module.IsCodeAddress 0 := by
    unfold Module.IsCodeAddress
    omega
  have hentry : compiled.module.IsTypeId entryFrameId := by
    have hlength := D.length_types
    unfold Module.IsTypeId entryFrameId
    omega
  refine ⟨?_, fun n d hd => D.id_of_types (describe_ok T.data_descriptor).1 hd, ?_, ?_, fun l hl => ?_,
    fun i hi => ?_, fun i hi target htarget => ?_, fun i hi id hid => T.typeId_lt D hi hid,
    T.handlers_eq_nil D, fun item hitem => T.item_fits D hitem⟩
  · intro hempty
    rw [hempty, List.length_nil] at hstart
    omega
  · have hhead : compiled.module.describedDataSize = T.data.descriptor.size := by
      unfold Module.describedDataSize
      rw [D.types_eq]
      rfl
    rw [hhead, (describe_ok T.data_descriptor).2, D.module_eq, ← T.data_size]
    rfl
  · rw [show compiled.module.entryPc = 0 by rw [D.module_eq]; rfl,
      show compiled.module.entryType = entryFrameId by rw [D.module_eq]; rfl]
    exact ⟨hpc, hentry⟩
  · rw [show compiled.module.links = [⟨0, entryFrameId, initSignature, initName⟩] by rw [D.module_eq]; rfl]
      at hl
    obtain rfl := List.mem_singleton.mp hl
    exact ⟨hpc, hentry⟩
  · rcases T.aims D hi with rfl | rfl | ⟨_, _, -, haims⟩
    · rfl
    · rfl
    · exact haims.direct
  · obtain ⟨hpos, hlt⟩ := T.branchTarget_lt D hi htarget
    unfold Module.IsCodeAddress
    omega

/-! ## The whole -/

/-- Every function that a call names has a place. -/
theorem exists_placement {name : String} {target : Function} (hfound : program.function? name = some target)
    (hbody : target.isDeclaration = false) :
    ∃ placement, calleeOf? T.fragments name = some placement := by
  obtain ⟨j, fragment, hj, hname⟩ := T.exists_callee hfound hbody
  have hsymbol := List.mem_of_getElem? (getElem?_placeFragments hj)
  have hsome : ((placeFragments T.fragments).reverse.find? (·.name == name)).isSome := by
    rw [List.find?_isSome]
    exact ⟨_, List.mem_reverse.mpr hsymbol, by simpa using hname⟩
  obtain ⟨symbol, hfind⟩ := Option.isSome_iff_exists.mp hsome
  refine ⟨symbol.placement, ?_⟩
  unfold calleeOf? placementOf?
  rw [hfind]
  rfl

/-- **Putting together the functions of a program** stops at a limit only. -/
theorem stopsFor_assemble (options : LinkOptions) (log : Log) :
    StopsFor Fault.IsLimit (assemble options T.fragments T.data) log := by
  unfold assemble
  have hnonempty : ¬ T.fragments.isEmpty = true := by simpa using T.fragments_ne_nil
  rw [if_neg hnonempty]
  refine .bind .modify fun _ _ _ => ?_
  refine .bind (stopsFor_linkFragments fun p hp base log => ?_) fun linked _ hlinked => ?_
  · obtain ⟨k, hk⟩ := List.mem_iff_getElem?.mp (List.of_mem_zip hp).1
    obtain ⟨f, c, c', hprogram, ⟨L⟩⟩ := T.lowering_of_fragment hk
    refine L.stopsFor_linkFragment fun name target hfound hbody => ?_
    rw [hprogram] at hfound
    exact T.exists_placement hfound hbody
  · refine .bind (.liftResult (failsFor_frameDescriptors _)) fun frames _ hframes => ?_
    obtain ⟨hframes, -⟩ := liftResult_ok_iff.mp hframes
    obtain ⟨D⟩ := draft_of_linkFragments hlinked hframes options T.data
    have hcoherent : (moduleOf options T.data frames linked).Coherent := T.coherent D
    cases hcause : (moduleOf options T.data frames linked).inconsistency? with
    | some cause =>
      obtain ⟨pc, i, -, rfl, hrange⟩ := hcoherent.inconsistency?_eq hcause
      simp only [hcause]
      exact .throw hrange
    | none =>
      simp only [hcause]
      exact .bind .modify fun _ _ _ => .pure

end Translation
end DisBackend
