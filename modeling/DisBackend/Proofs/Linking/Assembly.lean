import DisBackend.Proofs.Descriptor
import DisBackend.Proofs.Linking.Fragments

/-!
# `Proofs.Linking.Assembly` — a module and the fragments it was made of

Three counters run over the fragments of a module: frame ids, addresses and the ids of call sites. What
they were for a fragment is a sum over the fragments before it, and from there its instructions and
descriptors are found again in the module.

## Contents

* `startOf`, `callSiteStart` — the counters; `calleeOf?_ok` — where calls go;
* `Draft`, `Assembly`, `draft_of_linkFragments`, `assemble_assembly` — the parts a module was put together
  from, before and after it is found to be consistent;
* `Draft.symbol`, `Draft.code_eq`, `Draft.code_at`, `Draft.frame_at`, `Draft.callSite_at`, … — where they
  are;
* `Draft.patched_at`, `Draft.moved_at` — what became of the instructions.
-/

namespace DisBackend

/-- The address of fragment number `k`: the instruction that loads the system module comes first. -/
def startOf (fragments : List Fragment) (k : Nat) : Nat := 1 + codeBefore fragments k

/-- The id of the first call site of fragment number `k`: the module data and the frames come first. -/
def callSiteStart (fragments : List Fragment) (k : Nat) : Nat :=
  fragments.length + 1 + callSitesBefore fragments k

/-- The code of a fragment lies before the end of all fragments. -/
theorem startOf_add_lt {fragments : List Fragment} {k n : Nat} {f : Fragment}
    (hk : fragments[k]? = some f) (hn : n < f.code.length) :
    startOf fragments k + n < startOf fragments fragments.length := by
  obtain ⟨hlt, rfl⟩ := List.getElem?_eq_some_iff.mp hk
  have hsplit : fragments = fragments.take k ++ fragments[k] :: fragments.drop (k + 1) := by
    rw [← List.drop_eq_getElem_cons hlt, List.take_append_drop]
  have hsum : codeBefore fragments fragments.length = codeBefore fragments k +
      (fragments[k].code.length + ((fragments.drop (k + 1)).map fun g => g.code.length).sum) := by
    unfold codeBefore
    rw [List.take_length]
    conv_lhs => rw [hsplit]
    rw [List.map_append, List.sum_append, List.map_cons, List.sum_cons]
  unfold startOf
  omega

/-- Where the calls in a module go. -/
def calleeOf? (fragments : List Fragment) : String → Option Placement :=
  placementOf? (placeFragments fragments)

/-- A module, and the parts it was put together from. Whether they fit together is not known yet. -/
structure Draft (options : LinkOptions) (fragments : List Fragment) (data : DataSegment)
    (compiled : CompiledModule) where
  linked : List LinkedFragment
  frames : List TypeDescriptor
  symbols_eq : compiled.symbols = placeFragments fragments
  module_eq : compiled.module = moduleOf options data frames linked
  linked_length : linked.length = fragments.length
  fragment : ∀ (k : Nat) (f : Fragment), fragments[k]? = some f → ∃ l, linked[k]? = some l ∧
    f.LinkedAs ⟨startOf fragments k, callSiteStart fragments k, calleeOf? fragments⟩ l
  frames_length : frames.length = fragments.length
  frame : ∀ (k : Nat) (f : Fragment), fragments[k]? = some f → ∃ d, frames[k]? = some d ∧
    f.frame.descriptor (k + 1) = .ok d

/-- A module that was found to be consistent, and the parts it was put together from. -/
structure Assembly (options : LinkOptions) (fragments : List Fragment) (data : DataSegment)
    (compiled : CompiledModule) extends Draft options fragments data compiled where
  consistent : compiled.module.inconsistency? = none

theorem getElem?_placeFragments {fragments : List Fragment} {k : Nat} {f : Fragment}
    (hk : fragments[k]? = some f) : (placeFragments fragments)[k]? =
      some ⟨f.name, k + 1, startOf fragments k, f.code.length⟩ := by
  have hplace := @getElem?_placeFrom entryFrameId prologueLength fragments k f hk
  have hid : entryFrameId + k = (k : Int) + 1 := Int.add_comm _ _
  have haddress : prologueLength + (codeBefore fragments k : Int) = (startOf fragments k : Nat) := by
    unfold prologueLength startOf
    omega
  rw [hid, haddress] at hplace
  exact hplace

/-- **A call goes to the last fragment of its name.** -/
theorem calleeOf?_ok {fragments : List Fragment} {name : String} {callee : Placement}
    (h : calleeOf? fragments name = some callee) :
    ∃ (j : Nat) (g : Fragment), fragments[j]? = some g ∧ g.name = name ∧
      callee = ⟨j + 1, startOf fragments j⟩ ∧
      ∀ (j' : Nat) (g' : Fragment), j < j' → fragments[j']? = some g' → g'.name ≠ name := by
  obtain ⟨j, symbol, hsymbol, hname, rfl, hlast⟩ := placementOf?_ok h
  have hlength : (placeFragments fragments).length = fragments.length := length_placeFrom
  obtain ⟨hlt, -⟩ := List.getElem?_eq_some_iff.mp hsymbol
  have hg : fragments[j]? = some fragments[j] := List.getElem?_eq_getElem (by omega)
  rw [getElem?_placeFragments hg, Option.some.injEq] at hsymbol
  subst hsymbol
  exact ⟨j, _, hg, hname, rfl, fun j' g' hj hg' => hlast j' _ hj (getElem?_placeFragments hg')⟩

/-- **Fragments that were linked make a draft.** -/
theorem draft_of_linkFragments {fragments : List Fragment} {linked : List LinkedFragment}
    {frames : List TypeDescriptor} {log log' : Log}
    (hlinked : linkFragments (calleeOf? fragments) (fragments.length + 1)
      (fragments.zip (placeFragments fragments)) log = .ok linked log')
    (hframes : frameDescriptors (fragments.zip (placeFragments fragments)) = .ok frames)
    (options : LinkOptions) (data : DataSegment) :
    Nonempty (Draft options fragments data
      ⟨moduleOf options data frames linked, placeFragments fragments⟩) := by
  have hlength : (placeFragments fragments).length = fragments.length := length_placeFrom
  obtain ⟨hlinkedLength, hfragment⟩ := linkFragments_linkedAs hlinked hlength
  rw [frameDescriptors, except_mapM_ok_iff] at hframes
  refine ⟨⟨linked, frames, rfl, rfl, hlinkedLength, fun k f hf => ?_, ?_, fun k f hf => ?_⟩⟩
  · obtain ⟨l, hl, hlinkedAs⟩ := hfragment k f _ hf (getElem?_placeFragments hf)
    refine ⟨l, hl, ?_⟩
    have hbase : (fragments.length : Int) + 1 + callSitesBefore fragments k
        = (callSiteStart fragments k : Nat) := by
      unfold callSiteStart
      omega
    rw [hbase] at hlinkedAs
    exact hlinkedAs
  · rw [← hframes.length_eq, List.length_zip, hlength, Nat.min_self]
  · have hzip : (fragments.zip (placeFragments fragments))[k]? =
        some (f, ⟨f.name, k + 1, startOf fragments k, f.code.length⟩) :=
      List.getElem?_zip_eq_some.mpr ⟨hf, getElem?_placeFragments hf⟩
    obtain ⟨d, hd, hframe⟩ := forall₂_getElem? hframes hzip
    exact ⟨d, hd, hframe⟩

/-- **A module that was put together has an `Assembly`.** -/
theorem assemble_assembly {options : LinkOptions} {fragments : List Fragment} {data : DataSegment}
    {compiled : CompiledModule} {log log' : Log}
    (h : assemble options fragments data log = .ok compiled log') :
    Nonempty (Assembly options fragments data compiled) := by
  unfold assemble at h
  by_cases hempty : fragments.isEmpty = true
  · simp only [if_pos hempty] at h
    cases h
  simp only [if_neg hempty, bind_ok_iff, liftResult_ok_iff] at h
  obtain ⟨_, _, -, linked, _, hlinked, frames, _, ⟨hframes, -⟩, hmodule⟩ := h
  obtain ⟨draft⟩ := draft_of_linkFragments hlinked hframes options data
  cases hfault : (moduleOf options data frames linked).inconsistency? with
  | some cause =>
    simp only [hfault] at hmodule
    cases hmodule
  | none =>
    simp only [hfault, bind_ok_iff, pure_ok_iff] at hmodule
    obtain ⟨_, _, -, rfl, -⟩ := hmodule
    exact ⟨⟨draft, hfault⟩⟩

/-! ## Where the parts are -/

theorem closeCode_eq (code : List Instruction) :
    ∃ tail, closeCode code = code ++ tail ∧ (tail = [] ∨ tail = [.plain .ret]) := by
  unfold closeCode
  by_cases h : code.getLast?.map Instruction.opcode = some .ret
  · exact ⟨[], by rw [if_pos h, List.append_nil], .inl rfl⟩
  · exact ⟨[.plain .ret], by rw [if_neg h], .inr rfl⟩

theorem getLast?_closeCode (code : List Instruction) :
    (closeCode code).getLast?.map Instruction.opcode = some .ret := by
  unfold closeCode
  by_cases h : code.getLast?.map Instruction.opcode = some .ret
  · rw [if_pos h]
    exact h
  · rw [if_neg h, List.getLast?_concat]
    rfl

/-- A descriptor of a consistent module has its position as its id. -/
theorem Module.id_of_consistent {m : Module} (h : m.inconsistency? = none) {n : Nat}
    {d : TypeDescriptor} (hd : m.types[n]? = some d) : d.id = n := by
  simp only [inconsistency?, Option.or_eq_none_iff, List.findSome?_eq_none_iff] at h
  have hmem : (d, n) ∈ m.types.zipIdx := List.mem_zipIdx_iff_getElem?.mpr hd
  have hnone := h.1.1.1.1.1.1.1.1.2 _ hmem
  by_cases hid : d.id = n
  · exact hid
  · simp [hid] at hnone

/-- A descriptor of a consistent module is found by its position. -/
theorem Module.descriptor?_of_consistent {m : Module} (h : m.inconsistency? = none) {n : Nat}
    {d : TypeDescriptor} (hd : m.types[n]? = some d) : m.descriptor? n = some d := by
  obtain ⟨hlt, rfl⟩ := List.getElem?_eq_some_iff.mp hd
  unfold descriptor?
  rw [List.find?_eq_some_iff_getElem]
  refine ⟨by simp [id_of_consistent h hd], n, hlt, rfl, fun j hj => ?_⟩
  have hid := id_of_consistent h (List.getElem?_eq_getElem (show j < m.types.length by omega))
  rw [hid]
  simp
  omega

namespace Draft

variable {options : LinkOptions} {fragments : List Fragment} {data : DataSegment}
  {compiled : CompiledModule} (A : Draft options fragments data compiled)
  {k : Nat} {f : Fragment}

theorem linked_eq_none (h : fragments[k]? = none) : A.linked[k]? = none := by
  rw [List.getElem?_eq_none_iff] at h ⊢
  rw [A.linked_length]
  exact h

/-- What is the same of a fragment and of what became of it is the same all along. -/
theorem map_linked {γ : Type} {g : LinkedFragment → γ} {g' : Fragment → γ}
    (h : ∀ {f place l}, Fragment.LinkedAs f place l → g l = g' f) :
    A.linked.map g = fragments.map g' := by
  apply List.ext_getElem?
  intro k
  rw [List.getElem?_map, List.getElem?_map]
  cases hf : fragments[k]? with
  | none =>
    rw [A.linked_eq_none hf]
    rfl
  | some f =>
    obtain ⟨l, hl, hlinked⟩ := A.fragment k f hf
    rw [hl, Option.map_some, Option.map_some, h hlinked]

theorem length_renumber (base : Int) (ds : List TypeDescriptor) : (renumber base ds).length = ds.length :=
  List.length_mapIdx

theorem codeBefore_eq (k : Nat) :
    ((A.linked.take k).map fun l => l.code.length).sum = codeBefore fragments k := by
  unfold codeBefore
  rw [List.map_take, List.map_take, A.map_linked fun h => h.length]

theorem callSitesBefore_eq (k : Nat) :
    ((A.linked.take k).map fun l => l.callSites.length).sum = callSitesBefore fragments k := by
  unfold callSitesBefore
  rw [List.map_take, List.map_take,
    A.map_linked fun h => by rw [h.callSites, length_renumber]]

include A

/-- **Symbol number `k`.** -/
theorem symbol (hk : fragments[k]? = some f) : compiled.symbols[k]? =
    some ⟨f.name, k + 1, startOf fragments k, f.code.length⟩ := by
  rw [A.symbols_eq]
  exact getElem?_placeFragments hk

theorem length_symbols : compiled.symbols.length = fragments.length := by
  rw [A.symbols_eq]
  exact length_placeFrom

/-- A symbol is one of a fragment. -/
theorem symbol_eq {symbol : Symbol} (h : compiled.symbols[k]? = some symbol) :
    ∃ fragment, fragments[k]? = some fragment ∧
      symbol = ⟨fragment.name, k + 1, startOf fragments k, fragment.code.length⟩ := by
  have hlt : k < fragments.length := by
    rw [← A.length_symbols]
    exact (List.getElem?_eq_some_iff.mp h).1
  have hfragment := List.getElem?_eq_getElem hlt
  rw [A.symbol hfragment, Option.some.injEq] at h
  exact ⟨_, hfragment, h.symm⟩

/-- **The symbols** of the fragments, in order. -/
theorem symbols_eq_mapIdx : compiled.symbols =
    fragments.mapIdx fun k f => ⟨f.name, k + 1, startOf fragments k, f.code.length⟩ := by
  apply List.ext_getElem?
  intro k
  rw [List.getElem?_mapIdx]
  cases hf : fragments[k]? with
  | some f => rw [A.symbol hf]; rfl
  | none =>
    rw [List.getElem?_eq_none_iff, ← A.length_symbols, ← List.getElem?_eq_none_iff] at hf
    rw [hf]
    rfl

/-- **The code:** the instruction that loads the system module, the fragments, and perhaps a `ret`. -/
theorem code_eq : ∃ tail, compiled.module.code =
    (prologue data :: A.linked.flatMap LinkedFragment.code) ++ tail ∧
      (tail = [] ∨ tail = [.plain .ret]) := by
  rw [A.module_eq]
  exact closeCode_eq _

/-- Every instruction is one of these. -/
theorem instruction_cases {i : Instruction} (hi : i ∈ compiled.module.code) :
    i = prologue data ∨ i = .plain .ret ∨
      ∃ (k : Nat) (f : Fragment) (l : LinkedFragment), fragments[k]? = some f ∧
        f.LinkedAs ⟨startOf fragments k, callSiteStart fragments k, calleeOf? fragments⟩ l ∧ i ∈ l.code := by
  obtain ⟨tail, hcode, htail⟩ := A.code_eq
  rw [hcode] at hi
  rcases List.mem_append.mp hi with hi | hi
  · rcases List.mem_cons.mp hi with rfl | hi
    · exact .inl rfl
    · obtain ⟨l, hl, hmem⟩ := List.mem_flatMap.mp hi
      obtain ⟨k, hk⟩ := List.mem_iff_getElem?.mp hl
      have hlt : k < fragments.length := by
        rw [← A.linked_length]
        exact (List.getElem?_eq_some_iff.mp hk).1
      have hf := List.getElem?_eq_getElem hlt
      obtain ⟨l', hl', hlinked⟩ := A.fragment k _ hf
      rw [hk, Option.some.injEq] at hl'
      subst hl'
      exact .inr (.inr ⟨k, _, l, hf, hlinked, hmem⟩)
  · rcases htail with rfl | rfl
    · cases hi
    · exact .inr (.inl (List.mem_singleton.mp hi))

/-- **The code of fragment number `k`** lies where its symbol says. -/
theorem code_at {l : LinkedFragment} (hl : A.linked[k]? = some l) {n : Nat}
    (hn : n < l.code.length) : compiled.module.code[startOf fragments k + n]? = l.code[n]? := by
  have hflat := getElem?_flatMap hl hn
  rw [A.codeBefore_eq k] at hflat
  obtain ⟨tail, hcode, -⟩ := A.code_eq
  have hlt : codeBefore fragments k + n < (A.linked.flatMap LinkedFragment.code).length := by
    have hsome : (A.linked.flatMap LinkedFragment.code)[codeBefore fragments k + n]? ≠ none := by
      rw [hflat, List.getElem?_eq_getElem hn]
      exact nofun
    rw [ne_eq, List.getElem?_eq_none_iff, Nat.not_le] at hsome
    exact hsome
  have hindex : startOf fragments k + n = (codeBefore fragments k + n) + 1 := by
    unfold startOf
    omega
  rw [hcode, hindex, List.getElem?_append_left (by rw [List.length_cons]; omega),
    List.getElem?_cons_succ]
  exact hflat

/-- A patched instruction names the last fragment of its callee's name. -/
theorem patched_at (hk : fragments[k]? = some f) {patch : Patch} (hpatch : patch ∈ f.patches) :
    ∃ (i : Instruction) (j : Nat) (g : Fragment), f.code[patch.instruction]? = some i ∧
      fragments[j]? = some g ∧ g.name = patch.callee ∧
      (∀ (j' : Nat) (g' : Fragment), j < j' → fragments[j']? = some g' → g'.name ≠ patch.callee) ∧
      compiled.module.code[startOf fragments k + patch.instruction]? =
        some (patch.kind.fill i ⟨j + 1, startOf fragments j⟩) := by
  obtain ⟨l, hl, hlinked⟩ := A.fragment k f hk
  obtain ⟨i, callee, hi, hcallee, hcode⟩ := hlinked.patched patch hpatch
  obtain ⟨j, g, hg, hname, rfl, hlast⟩ := calleeOf?_ok hcallee
  refine ⟨i, j, g, hi, hg, hname, hlast, ?_⟩
  rw [A.code_at hl (List.getElem?_eq_some_iff.mp hcode).1, hcode]

/-- Every other instruction is moved. -/
theorem moved_at (hk : fragments[k]? = some f) {n : Nat} {i : Instruction} (hi : f.code[n]? = some i)
    (hnot : ∀ patch ∈ f.patches, patch.instruction ≠ n) :
    compiled.module.code[startOf fragments k + n]? =
      some (i.movedTo (startOf fragments k) (callSiteStart fragments k)) := by
  obtain ⟨l, hl, hlinked⟩ := A.fragment k f hk
  have hcode := hlinked.moved n i hi hnot
  rw [A.code_at hl (List.getElem?_eq_some_iff.mp hcode).1, hcode]

theorem types_eq : compiled.module.types =
    data.descriptor :: A.frames ++ A.linked.flatMap LinkedFragment.callSites := by
  rw [A.module_eq]
  rfl

/-- **The frame descriptor of fragment number `k`.** -/
theorem frame_at (hk : fragments[k]? = some f) : ∃ d, compiled.module.types[k + 1]? = some d ∧
    f.frame.descriptor (k + 1) = .ok d := by
  obtain ⟨d, hd, hdescriptor⟩ := A.frame k f hk
  refine ⟨d, ?_, hdescriptor⟩
  have hlt : k < A.frames.length := by
    rw [A.frames_length]
    exact (List.getElem?_eq_some_iff.mp hk).1
  rw [A.types_eq, List.cons_append, List.getElem?_cons_succ, List.getElem?_append_left hlt]
  exact hd

/-- **The call sites of fragment number `k`,** numbered on. -/
theorem callSite_at (hk : fragments[k]? = some f) {c : Nat} {d : TypeDescriptor}
    (hd : f.callSites[c]? = some d) : compiled.module.types[callSiteStart fragments k + c]? =
      some { d with id := callSiteStart fragments k + c } := by
  obtain ⟨l, hl, hlinked⟩ := A.fragment k f hk
  have hsite : l.callSites[c]? = some { d with id := callSiteStart fragments k + c } := by
    rw [hlinked.callSites, renumber, List.getElem?_mapIdx, hd]
    rfl
  have hlt : c < l.callSites.length := (List.getElem?_eq_some_iff.mp hsite).1
  have hflat := getElem?_flatMap hl hlt
  rw [A.callSitesBefore_eq k, hsite] at hflat
  have hindex : callSiteStart fragments k + c =
      (data.descriptor :: A.frames).length + (callSitesBefore fragments k + c) := by
    rw [List.length_cons, A.frames_length]
    unfold callSiteStart
    omega
  rw [A.types_eq, hindex, List.getElem?_append_right (by omega), Nat.add_sub_cancel_left, hflat]

theorem length_types : compiled.module.types.length =
    1 + fragments.length + callSitesBefore fragments fragments.length := by
  have hsites := A.callSitesBefore_eq fragments.length
  rw [← A.linked_length, List.take_length, A.linked_length] at hsites
  rw [A.types_eq, List.length_append, List.length_cons, A.frames_length, List.length_flatMap, hsites]
  omega

/-- The fragments lie before the address that would be that of the next one. -/
theorem length_linked : (prologue data :: A.linked.flatMap LinkedFragment.code).length
    = startOf fragments fragments.length := by
  have hlength := A.codeBefore_eq fragments.length
  rw [← A.linked_length, List.take_length, A.linked_length] at hlength
  rw [List.length_cons, List.length_flatMap, hlength, startOf, Nat.add_comm]

/-- Before the fragments there is one instruction, and after them at most a `ret`. -/
theorem code_ends : compiled.module.code[0]? = some (prologue data) ∧
    (compiled.module.code.drop (startOf fragments fragments.length) = [] ∨
      compiled.module.code.drop (startOf fragments fragments.length) = [.plain .ret]) := by
  obtain ⟨tail, hcode, hret⟩ := A.code_eq
  rw [hcode, ← A.length_linked, List.drop_left]
  exact ⟨rfl, hret⟩

theorem startOf_le_length : startOf fragments fragments.length ≤ compiled.module.code.length := by
  obtain ⟨tail, hcode, -⟩ := A.code_eq
  rw [hcode, List.length_append, A.length_linked]
  exact Nat.le_add_right _ _

/-- The handlers of one fragment after the other. -/
theorem handlers_eq : compiled.module.handlers =
    (fragments.mapIdx fun k f => f.handlers.map (Handler.movedTo (startOf fragments k))).flatten := by
  have hmap : A.linked.map LinkedFragment.handlers =
      fragments.mapIdx fun k f => f.handlers.map (Handler.movedTo (startOf fragments k)) := by
    apply List.ext_getElem?
    intro k
    rw [List.getElem?_map, List.getElem?_mapIdx]
    cases hf : fragments[k]? with
    | none =>
      rw [A.linked_eq_none hf]
      rfl
    | some f =>
      obtain ⟨l, hl, hlinked⟩ := A.fragment k f hf
      rw [hl, Option.map_some, Option.map_some, hlinked.handlers]
  rw [A.module_eq, ← hmap]
  exact List.flatMap_def ..

end Draft

theorem Assembly.descriptor?_frame {options : LinkOptions} {fragments : List Fragment}
    {data : DataSegment} {compiled : CompiledModule} (A : Assembly options fragments data compiled)
    {k : Nat} {fragment : Fragment} (hk : fragments[k]? = some fragment) :
    ∃ d, compiled.module.descriptor? (k + 1) = some d ∧ fragment.frame.descriptor (k + 1) = .ok d := by
  obtain ⟨d, hd, hframe⟩ := A.frame_at hk
  exact ⟨d, Module.descriptor?_of_consistent A.consistent hd, hframe⟩

end DisBackend
