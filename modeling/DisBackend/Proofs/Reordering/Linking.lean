import DisBackend.Proofs.Module.Compiled
import DisBackend.Proofs.Reordering.Renaming

/-!
# `Proofs.Reordering.Linking` — linking with other places

Linking moves branch targets and the ids of descriptors, and fills in calls. It never looks at a place in
module data or in the import table. Fragments that differ by a renaming are therefore linked to modules that
differ by it, and if one of the modules is consistent, so is the other: a renaming moves words within
module data, where all of them are within reach.

## Contents

* `Instruction.relocate_rename`, `links_linkFragments` — fragments in their places;
* `Module.Corresponds` — modules that differ by a renaming;
* `Renaming.KeepsEncodable`, `Module.Coherent.consistent_iff` — renamed operands can be written;
* `Context.Renamed.items_perm`, `Translation.moved_literal` — the data items;
* `Translation.alike_assemble` — the whole.
-/

namespace DisBackend

open Ssa (Program)

/-! ## Instructions -/

section Instructions

variable {ρ : Renaming}

theorem Operand.immediate?_rename (o : Operand) : (o.rename ρ).immediate? = o.immediate? := by
  cases o <;> rfl

theorem Operand.shift_rename (amount : Int) (o : Operand) :
    (o.rename ρ).shift amount = (o.shift amount).map (Operand.rename ρ) := by
  cases o with
  | imm value =>
    show (checkedAdd amount value).map Operand.imm = ((checkedAdd amount value).map Operand.imm).map _
    cases checkedAdd amount value <;> rfl
  | absent | fp | mp | fpIndirect | mpIndirect => rfl

/-- The place of an import is no descriptor, so that a middle operand that is moved has no other name. -/
theorem Operand.shift_renameMiddle {opcode : Opcode} (h : opcode.typeInMiddle = true) (amount : Int)
    (o : Operand) : (o.renameMiddle ρ opcode).shift amount =
      (o.shift amount).map (Operand.renameMiddle ρ opcode) := by
  rw [opcode.typeInMiddle_iff.mp h]
  exact Operand.shift_rename amount o

/-- One operand, moved if the operation says so. -/
theorem shift_if_rename {c : Prop} [Decidable c] {rename : Operand → Operand} {amount : Int} {o : Operand}
    (hshift : c → (rename o).shift amount = (o.shift amount).map rename)
    {k k' : Operand → Except Fault Instruction}
    (hk : ∀ o, k' (rename o) = (k o).map (Instruction.rename ρ)) :
    (if c then (rename o).shift amount >>= k' else pure (rename o) >>= k') =
      (if c then o.shift amount >>= k else pure o >>= k).map (Instruction.rename ρ) := by
  split
  · next hc =>
    rw [hshift hc]
    cases o.shift amount with
    | ok o' => exact hk o'
    | error fault => rfl
  · exact hk o

/-- **Relocation does not look at places.** -/
theorem Instruction.relocate_rename (start callSiteBase : Int) (i : Instruction) :
    (i.rename ρ).relocate start callSiteBase =
      (i.relocate start callSiteBase).map (Instruction.rename ρ) := by
  refine shift_if_rename (fun _ => Operand.shift_rename _ _) fun src => ?_
  refine shift_if_rename (fun hmid => Operand.shift_renameMiddle hmid _ _) fun mid => ?_
  exact shift_if_rename (fun _ => Operand.shift_rename _ _) fun dst => rfl

end Instructions

/-! ## Fragments -/

/-- Both runs of the linker fail, or end with results that are related by `Q`. -/
abbrev LinksAlike {α : Type} (Q : α → α → Prop) (m m' : LinkM α) : Prop :=
  Parallel (fun _ _ => True) (fun _ _ => True) Q m m'

/-- What a fragment contributes to a module, with new offsets and places. -/
def LinkedFragment.rename (ρ : Renaming) (l : LinkedFragment) : LinkedFragment :=
  { l with code := l.code.map (Instruction.rename ρ) }

section Fragments

variable {ρ : Renaming} {f : Fragment} {place : Place}

theorem links_liftResult {α : Type} (x : Except Fault α) : LinksAlike Eq (liftResult x) (liftResult x) := by
  cases x with
  | ok a => exact .pure rfl
  | error fault => exact .throw trivial

theorem links_relocate (start callSiteBase : Int) (i : Instruction) :
    LinksAlike (fun i i' => i' = i.rename ρ) (liftResult (i.relocate start callSiteBase))
      (liftResult ((i.rename ρ).relocate start callSiteBase)) := by
  rw [Instruction.relocate_rename]
  cases i.relocate start callSiteBase with
  | ok i' => exact .pure rfl
  | error fault => exact .throw trivial

theorem links_apply (kind : PatchKind) (i : Instruction) (placement : Placement) :
    LinksAlike (fun i i' => i' = i.rename ρ) (liftResult (kind.apply i placement))
      (liftResult (kind.apply (i.rename ρ) placement)) := by
  have hsrc : (i.rename ρ).src.immediate? = i.src.immediate? := i.src.immediate?_rename
  have hdst : (i.rename ρ).dst.immediate? = i.dst.immediate? := i.dst.immediate?_rename
  cases kind with
  | frameId =>
    unfold PatchKind.apply
    simp only [hsrc]
    split
    · exact .pure rfl
    · exact .throw trivial
  | callAddress =>
    unfold PatchKind.apply
    simp only [hdst]
    split
    · exact .pure rfl
    · exact .throw trivial

theorem links_linkInstruction (index : Nat) (i : Instruction) :
    LinksAlike (fun i i' => i' = i.rename ρ) (linkInstruction f place index i)
      (linkInstruction (f.rename ρ) place index (i.rename ρ)) := by
  unfold linkInstruction
  rw [show (f.rename ρ).patches = f.patches from rfl]
  split
  · exact links_relocate _ _ _
  · split
    · exact .throw trivial
    · exact .bind_eq (.modify fun _ _ _ => trivial) fun _ => links_apply _ _ _

theorem links_linkCode (index : Nat) (is : List Instruction) :
    LinksAlike (fun is is' => is' = is.map (Instruction.rename ρ)) (linkCode f place index is)
      (linkCode (f.rename ρ) place index (is.map (Instruction.rename ρ))) := by
  induction is generalizing index with
  | nil => exact .pure rfl
  | cons i is ih =>
    refine .bind (links_linkInstruction index i) fun j j' hj => .bind (ih _) fun js js' hjs => .pure ?_
    rw [hj, hjs, List.map_cons]

theorem links_linkFragment :
    LinksAlike (fun l l' => l' = l.rename ρ) (linkFragment f place) (linkFragment (f.rename ρ) place) := by
  unfold linkFragment
  rw [show (f.rename ρ).code.length = f.code.length from List.length_map _]
  refine .bind_eq (links_liftResult _) fun _ => ?_
  refine .bind (links_linkCode 0 f.code) fun is is' his => ?_
  refine .bind_eq (links_liftResult _) fun handlers => .pure ?_
  rw [his]
  rfl

/-- **Fragments that differ by a renaming** are linked in the same way. -/
theorem links_linkFragments (callee? : String → Option Placement) (base : Int)
    (placed : List (Fragment × Symbol)) :
    LinksAlike (fun ls ls' => ls' = ls.map (LinkedFragment.rename ρ)) (linkFragments callee? base placed)
      (linkFragments callee? base (placed.map (Prod.map (Fragment.rename ρ) id))) := by
  induction placed generalizing base with
  | nil => exact .pure rfl
  | cons p rest ih =>
    refine .bind links_linkFragment fun l l' hl => .bind (ih _) fun ls ls' hls => .pure ?_
    rw [hl, hls, List.map_cons]

theorem placeFragments_rename (fragments : List Fragment) :
    placeFragments (fragments.map (Fragment.rename ρ)) = placeFragments fragments := by
  have hfrom (frameId address : Int) :
      placeFrom frameId address (fragments.map (Fragment.rename ρ)) =
        placeFrom frameId address fragments := by
    induction fragments generalizing frameId address with
    | nil => rfl
    | cons f fragments ih =>
      rw [List.map_cons, placeFrom, placeFrom, ih,
        show (f.rename ρ).code.length = f.code.length from List.length_map _]
      rfl
  exact hfrom _ _

theorem frameDescriptors_rename (placed : List (Fragment × Symbol)) :
    frameDescriptors (placed.map (Prod.map (Fragment.rename ρ) id)) = frameDescriptors placed := by
  unfold frameDescriptors
  rw [List.mapM_map]
  rfl

end Fragments

/-! ## Modules -/

/-- **Modules that differ by a renaming.** -/
structure Module.Corresponds (ρ : Renaming) (m m' : Module) : Prop where
  /-- The code is the same up to the renaming, -/
  code : m'.code = m.code.map (Instruction.rename ρ)
  /-- and so are the data items, apart from their order, -/
  data : (m.data.map (DataItem.rename ρ)).Perm m'.data
  /-- and the imports. -/
  imports : ∃ group group', m.imports = [group] ∧ m'.imports = [group'] ∧
    Rearranged ρ.imports group group'
  /-- Nothing else differs: descriptors, sizes, entry, links and names are the same. -/
  rest : m' = { m with code := m'.code, data := m'.data, imports := m'.imports }
  /-- Only string literals are moved, and the path of the system module is not. -/
  literals : ∀ offset, ρ.offset offset ≠ offset →
    ∃ value, value ≠ SysFunction.modulePath ∧ .string offset value ∈ m.data

/-- Modules with the same symbols that differ by a renaming. -/
structure CompiledModule.Corresponds (ρ : Renaming) (c c' : CompiledModule) : Prop where
  symbols : c'.symbols = c.symbols
  module : Module.Corresponds ρ c.module c'.module

theorem closeCode_rename (ρ : Renaming) (code : List Instruction) :
    closeCode (code.map (Instruction.rename ρ)) = (closeCode code).map (Instruction.rename ρ) := by
  have hlast : (code.map (Instruction.rename ρ)).getLast?.map Instruction.opcode =
      code.getLast?.map Instruction.opcode := by
    rw [List.getLast?_map, Option.map_map]
    rfl
  unfold closeCode
  rw [hlast]
  split
  · rfl
  · rw [List.map_append, List.map_singleton, Instruction.rename_plain]

/-! ## Operands that can be written -/

/-- The numbers that can be written stay so. -/
structure Renaming.KeepsEncodable (ρ : Renaming) : Prop where
  offset : ∀ o : Int, Encodable (ρ.offset o) ↔ Encodable o
  imports : ∀ k : Nat, Encodable (ρ.imports k : Nat) ↔ Encodable k

/-- All numbers of an instruction can be written. -/
def Instruction.IsEncodable (i : Instruction) : Prop :=
  ∀ operand ∈ i.operands, ∀ value ∈ operand.values, Encodable value

theorem Instruction.isEncodable_rename {ρ : Renaming} (hρ : ρ.KeepsEncodable) (i : Instruction) :
    (i.rename ρ).IsEncodable ↔ i.IsEncodable := by
  have hoperand (o : Operand) :
      (∀ value ∈ (o.rename ρ).values, Encodable value) ↔ ∀ value ∈ o.values, Encodable value := by
    cases o with
    | mp o => simp [Operand.rename, Operand.values, hρ.offset]
    | mpIndirect base o => simp [Operand.rename, Operand.values, hρ.offset]
    | absent | imm | fp | fpIndirect => rfl
  have himport (o : Operand) :
      (∀ value ∈ (o.renameImport ρ).values, Encodable value) ↔ ∀ value ∈ o.values, Encodable value := by
    cases o with
    | imm value =>
      cases value with
      | ofNat k => simpa [Operand.renameImport, Operand.values] using hρ.imports k
      | negSucc k => rfl
    | absent | fp | mp | fpIndirect | mpIndirect => rfl
  have hmid : (∀ value ∈ (i.rename ρ).mid.values, Encodable value) ↔
      ∀ value ∈ i.mid.values, Encodable value := by
    show (∀ value ∈ (i.mid.renameMiddle ρ i.opcode).values, _) ↔ _
    unfold Operand.renameMiddle
    split
    · exact himport _
    · exact hoperand _
  unfold IsEncodable operands
  simp only [List.forall_mem_cons]
  rw [hmid, show (i.rename ρ).src = i.src.rename ρ from rfl, show (i.rename ρ).dst = i.dst.rename ρ from rfl,
    hoperand, hoperand]

/-- **Parts that fit together make a consistent module** if and only if its operands can be written. -/
theorem Module.Coherent.consistent_iff {m : Module} (h : m.Coherent) :
    m.inconsistency? = none ↔ ∀ i ∈ m.code, i.IsEncodable := by
  constructor
  · intro hnone i hi
    exact (Module.instruction_storable hnone hi).values
  · intro hall
    cases hcause : m.inconsistency? with
    | none => rfl
    | some cause =>
      obtain ⟨pc, i, hi, -, operand, hoperand, value, hvalue, hnot⟩ := h.inconsistency?_eq hcause
      exact absurd (hall i hi operand hoperand value hvalue) hnot

/-- Where one of two modules is consistent, so is the other. -/
theorem Module.consistent_rename {ρ : Renaming} (hρ : ρ.KeepsEncodable) {m m' : Module} (h : m.Coherent)
    (h' : m'.Coherent) (hcode : m'.code = m.code.map (Instruction.rename ρ)) :
    m'.inconsistency? = none ↔ m.inconsistency? = none := by
  rw [h.consistent_iff, h'.consistent_iff, hcode, List.forall_mem_map]
  exact forall₂_congr fun i _ => i.isEncodable_rename hρ

/-! ## Data -/

theorem Cell.item?_rename (ρ : Renaming) (k : Nat) (cell : Cell) :
    (cell.item? (wordOffset 0 k)).map (DataItem.rename ρ) = cell.item? (wordOffset 0 (ρ.words k)) := by
  cases cell with
  | handle | global => rfl
  | string | long | real => simp [item?, DataItem.rename, ρ.offset_word]

/-- **The data items of contexts that differ by a renaming.** -/
theorem Context.Renamed.items_perm {ρ : Renaming} {c c' : Context} (h : c.Renamed ρ c') :
    (c.items.map (DataItem.rename ρ)).Perm c'.items := by
  have hitems : c.items.map (DataItem.rename ρ) =
      (c.cells.zipIdx.map fun p => (p.1, ρ.words p.2)).filterMap fun p =>
        p.1.item? (wordOffset 0 p.2) := by
    unfold Context.items
    rw [List.map_filterMap, List.filterMap_map]
    refine List.filterMap_congr fun p _ => ?_
    exact p.1.item?_rename ρ p.2
  rw [hitems]
  exact h.cells.zipIdx_perm.filterMap _

theorem Rearranged.lt_of_moved {α : Type} {π : Equiv.Perm Nat} {xs ys : List α} (h : Rearranged π xs ys)
    {k : Nat} (hk : π k ≠ k) : k < xs.length ∧ π k < xs.length := by
  constructor
  · by_contra hle
    exact hk (h.behind k (Nat.le_of_not_lt hle))
  · by_contra hle
    exact hk (π.injective (h.behind (π k) (Nat.le_of_not_lt hle)))

namespace Translation

variable {ρ : Renaming} {program program' : Program} (T : Translation program)
  (T' : Translation program')

/-- What is moved is within reach. -/
theorem keepsEncodable (h : T.final.Renamed ρ T'.final) : ρ.KeepsEncodable where
  offset o := by
    by_cases hmoved : ρ.offset o = o
    · rw [hmoved]
    · obtain ⟨k, rfl, hk⟩ := ρ.word_of_moved hmoved
      have hroom := T.hasRoom_final
      have hlt := h.cells.lt_of_moved hk
      rw [ρ.offset_word]
      unfold HasRoom wordOffset wordBytes operandMax at hroom
      unfold Encodable operandMin operandMax wordOffset wordBytes
      omega
  imports k := by
    by_cases hmoved : ρ.imports k = k
    · rw [hmoved]
    · have hlength := program.length_natives
      have hcount : SysFunction.all.length = 18 := rfl
      have hlt := h.natives.lt_of_moved hmoved
      rw [T.final_natives] at hlt
      unfold Encodable operandMin operandMax
      omega

/-- An offset that changes is that of a literal. -/
theorem moved_literal (h : T.final.Renamed ρ T'.final) {offset : Int} (hmoved : ρ.offset offset ≠ offset) :
    ∃ value, value ≠ SysFunction.modulePath ∧ .string offset value ∈ T.final.items := by
  obtain ⟨k, rfl, hk⟩ := ρ.word_of_moved hmoved
  have hlt := (h.cells.lt_of_moved hk).1
  have hcell := List.getElem?_eq_getElem hlt
  cases hkind : T.final.cells[k] with
  | string value =>
    rw [hkind] at hcell
    refine ⟨value, ?_, Context.item_of_cell hcell rfl⟩
    rintro rfl
    -- the path of the system module is the second cell, which stays
    have hpath : T.final.cells[1]? = some (.string SysFunction.modulePath) := by
      rw [T.final_cells]
      exact getElem?_of_prefix (List.prefix_append _ _) program.preparedCells_one
    rw [(List.getElem?_inj hlt h.distinct).mp (hcell.trans hpath.symm)] at hk
    exact hk ρ.path_fixed
  | handle | long | real | global =>
    rw [hkind] at hcell
    exact absurd (h.words_fixed hcell nofun) hk

variable (options : LinkOptions)

/-- **The modules** that functions which differ by a renaming are put together to. -/
theorem moduleOf_corresponds (h : T.final.Renamed ρ T'.final) (frames : List TypeDescriptor)
    (linked : List LinkedFragment) : Module.Corresponds ρ (moduleOf options T.data frames linked)
      (moduleOf options T'.data frames (linked.map (LinkedFragment.rename ρ))) where
  code := by
    have hprologue : prologue T'.data = (prologue T.data).rename ρ := by
      rw [T.data_eq, T'.data_eq]
      show Instruction.ternary .load (.mp sysPathOffset) (.imm 0) (.mp sysOffset) =
        .ternary .load (.mp (ρ.offset sysPathOffset)) (.imm 0) (.mp (ρ.offset sysOffset))
      rw [ρ.offset_sysPathOffset, ρ.offset_sysOffset]
    show closeCode (prologue T'.data :: _) = (closeCode (prologue T.data :: _)).map _
    rw [← closeCode_rename, List.map_cons, List.map_flatMap, List.flatMap_map, hprologue]
    rfl
  data := by
    show (T.data.items.map _).Perm T'.data.items
    rw [T.data_eq, T'.data_eq]
    exact h.items_perm
  imports := by
    refine ⟨_, _, rfl, rfl, ?_⟩
    rw [T.data_eq, T'.data_eq]
    exact h.natives.map _
  rest := by
    have hdescriptor : T'.data.descriptor = T.data.descriptor := by
      have hdata := T'.data_descriptor
      rw [h.moduleData_eq, T.data_descriptor] at hdata
      exact (Except.ok.inj hdata).symm
    have hsize : T'.data.size = T.data.size := by
      rw [T.data_size, T'.data_size, h.moduleData_eq]
    have hhandlers : (linked.map (LinkedFragment.rename ρ)).flatMap LinkedFragment.handlers =
        linked.flatMap LinkedFragment.handlers := List.flatMap_map _ _ _
    have hsites : (linked.map (LinkedFragment.rename ρ)).flatMap LinkedFragment.callSites =
        linked.flatMap LinkedFragment.callSites := List.flatMap_map _ _ _
    simp only [moduleOf, hdescriptor, hsize, hhandlers, hsites]
  literals offset hmoved := by
    show ∃ value, _ ∧ _ ∈ T.data.items
    rw [T.data_eq]
    exact T.moved_literal T' h hmoved

/-- **Putting together functions that differ by a renaming** fails for both, or gives modules that differ
by it. -/
theorem alike_assemble (h : T.final.Renamed ρ T'.final)
    (hfragments : T'.fragments = T.fragments.map (Fragment.rename ρ)) (log log' : Log) :
    Alike (fun _ _ => True) (fun _ _ => True) (CompiledModule.Corresponds ρ)
      (assemble options T.fragments T.data log) (assemble options T'.fragments T'.data log') := by
  have hsymbols : placeFragments T'.fragments = placeFragments T.fragments := by
    rw [hfragments, placeFragments_rename]
  have hplaced : T'.fragments.zip (placeFragments T'.fragments) =
      (T.fragments.zip (placeFragments T.fragments)).map (Prod.map (Fragment.rename ρ) id) := by
    rw [hsymbols, hfragments, List.zip_map_left]
  have hlength : T'.fragments.length = T.fragments.length := by rw [hfragments, List.length_map]
  have hcallee : calleeOf? T'.fragments = calleeOf? T.fragments := congrArg placementOf? hsymbols
  have hlinks : LinksAlike (fun ls ls' => ls' = ls.map (LinkedFragment.rename ρ))
      (linkFragments (calleeOf? T.fragments) (T.fragments.length + 1)
        (T.fragments.zip (placeFragments T.fragments)))
      (linkFragments (calleeOf? T'.fragments) (T'.fragments.length + 1)
        (T'.fragments.zip (placeFragments T'.fragments))) := by
    rw [hplaced, hcallee, hlength]
    exact links_linkFragments _ _ _
  have hframes : LinksAlike Eq (liftResult (frameDescriptors (T.fragments.zip (placeFragments T.fragments))))
      (liftResult (frameDescriptors (T'.fragments.zip (placeFragments T'.fragments)))) := by
    rw [hplaced, frameDescriptors_rename]
    exact links_liftResult _
  have hlog : LinksAlike Eq
      (modify fun (log : Log) => log ++ ((placeFragments T.fragments).map Symbol.placedEvent).toArray)
      (modify fun (log : Log) => log ++ ((placeFragments T'.fragments).map Symbol.placedEvent).toArray) :=
    .modify fun _ _ _ => trivial
  unfold assemble
  rw [if_neg (by simpa using T.fragments_ne_nil), if_neg (by simpa using T'.fragments_ne_nil)]
  refine (hlog log log' trivial).bind fun _ _ t t' _ _ _ _ => ?_
  refine (hlinks t t' trivial).bind fun linked linked' t t' hrun hrun' hlinked _ => ?_
  refine (hframes t t' trivial).bind fun frames frames' t t' hdescribe hdescribe' hframes _ => ?_
  -- both modules are made of parts that fit together, so that all that can be wrong is an operand
  obtain ⟨D⟩ := draft_of_linkFragments hrun (liftResult_ok_iff.mp hdescribe).1 options T.data
  obtain ⟨D'⟩ := draft_of_linkFragments hrun' (liftResult_ok_iff.mp hdescribe').1 options T'.data
  subst hlinked hframes
  have hmodule : Module.Corresponds ρ (moduleOf options T.data frames linked) _ :=
    T.moduleOf_corresponds T' options h frames linked
  have hconsistent := Module.consistent_rename (T.keepsEncodable T' h) (T.coherent D) (T'.coherent D')
    hmodule.code
  cases hcause : (moduleOf options T.data frames linked).inconsistency? with
  | none =>
    simp only [hconsistent.mpr hcause]
    exact .ok ⟨hsymbols, hmodule⟩ trivial
  | some cause =>
    cases hcause' :
        (moduleOf options T'.data frames (linked.map (LinkedFragment.rename ρ))).inconsistency? with
    | none =>
      rw [hconsistent.mp hcause'] at hcause
      cases hcause
    | some cause' => exact .error trivial

end Translation
end DisBackend
