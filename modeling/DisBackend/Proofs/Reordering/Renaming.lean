import DisBackend.Proofs.Data.Cells
import DisBackend.Proofs.Reordering.Parallel
import Mathlib.GroupTheory.Perm.ViaEmbedding

/-!
# `Proofs.Reordering.Renaming` — the same things in other places

When strings and imports are found in another order they get other places in module data and in the import
table, and all else stays where it was. A `Renaming` says which place became which. This module has the
renaming of code, and what it means that two contexts differ by a renaming.

## Contents

* `Rearranged`, `exists_rearranged` — lists with the same elements in other places;
* `Renaming`, `Renaming.offset` — new places for words of module data and for imports;
* `Instruction.rename`, `Line.rename`, `Fragment.rename`, `DataItem.rename`;
* `Context.Renamed`, `Context.parallel_intern`, `Context.parallel_nativeImport` — contexts that differ by a
  renaming stay so as they grow.
-/

namespace DisBackend

open Ssa (Function Program Ty)

/-! ## Rearranged lists -/

/-- `ys` has the elements of `xs`, the one at `k` at `π k`. Behind the end nothing is moved. -/
structure Rearranged {α : Type} (π : Equiv.Perm Nat) (xs ys : List α) : Prop where
  moved : ∀ k, ys[π k]? = xs[k]?
  behind : ∀ k, xs.length ≤ k → π k = k

/-- **Lists with the same elements are rearrangements of each other.** -/
theorem exists_rearranged {α : Type} {xs ys : List α} (h : xs.Perm ys) : ∃ π, Rearranged π xs ys := by
  induction h with
  | nil => exact ⟨1, fun k => rfl, fun k _ => rfl⟩
  | cons x h ih =>
    obtain ⟨π, hmoved, hbehind⟩ := ih
    let next : Nat ↪ Nat := ⟨Nat.succ, Nat.succ_injective⟩
    have hsucc (k : Nat) : π.viaEmbedding next (k + 1) = π k + 1 := π.viaEmbedding_apply next k
    have hzero : π.viaEmbedding next 0 = 0 := by
      apply π.viaEmbedding_apply_of_notMem
      rintro ⟨k, hk⟩
      exact Nat.succ_ne_zero k hk
    refine ⟨π.viaEmbedding next, fun k => ?_, fun k hk => ?_⟩
    · cases k with
      | zero => rw [hzero]; rfl
      | succ k => rw [hsucc, List.getElem?_cons_succ, List.getElem?_cons_succ, hmoved]
    · cases k with
      | zero => exact hzero
      | succ k => rw [hsucc, hbehind k (Nat.le_of_succ_le_succ hk)]
  | swap x y l =>
    refine ⟨Equiv.swap 0 1, fun k => ?_, fun k hk => ?_⟩
    · match k with
      | 0 => rw [Equiv.swap_apply_left]; rfl
      | 1 => rw [Equiv.swap_apply_right]; rfl
      | k + 2 => rw [Equiv.swap_apply_of_ne_of_ne (by omega) (by omega)]; rfl
    · simp only [List.length_cons] at hk
      exact Equiv.swap_apply_of_ne_of_ne (by omega) (by omega)
  | trans h h' ih ih' =>
    obtain ⟨π, hmoved, hbehind⟩ := ih
    obtain ⟨π', hmoved', hbehind'⟩ := ih'
    refine ⟨π.trans π', fun k => ?_, fun k hk => ?_⟩
    · rw [Equiv.trans_apply, hmoved', hmoved]
    · rw [Equiv.trans_apply, hbehind k hk, hbehind' k (h.length_eq ▸ hk)]

namespace Rearranged

variable {α β : Type} {π : Equiv.Perm Nat} {xs ys : List α} (h : Rearranged π xs ys)

include h

theorem length_eq : ys.length = xs.length := by
  apply Nat.le_antisymm
  · have hend : ys[π xs.length]? = none := by
      rw [h.moved]
      exact List.getElem?_eq_none (Nat.le_refl _)
    rw [h.behind _ (Nat.le_refl _)] at hend
    exact List.getElem?_eq_none_iff.mp hend
  · by_contra hlt
    -- the end of `ys` comes from behind the end of `xs`, where nothing is moved
    obtain ⟨j, hj⟩ := π.surjective ys.length
    have hnone : xs[j]? = none := by
      rw [← h.moved, hj]
      exact List.getElem?_eq_none (Nat.le_refl _)
    have hfixed := h.behind j (List.getElem?_eq_none_iff.mp hnone)
    rw [List.getElem?_eq_none_iff] at hnone
    omega

theorem mem_iff {a : α} : a ∈ ys ↔ a ∈ xs := by
  rw [List.mem_iff_getElem?, List.mem_iff_getElem?]
  constructor
  · rintro ⟨k, hk⟩
    refine ⟨π.symm k, ?_⟩
    rw [← h.moved, Equiv.apply_symm_apply]
    exact hk
  · rintro ⟨k, hk⟩
    exact ⟨π k, (h.moved k).trans hk⟩

theorem append (zs : List α) : Rearranged π (xs ++ zs) (ys ++ zs) where
  moved k := by
    by_cases hk : k < xs.length
    · have hsome : ys[π k]? = some xs[k] := (h.moved k).trans (List.getElem?_eq_getElem hk)
      have hlt := (List.getElem?_eq_some_iff.mp hsome).1
      rw [List.getElem?_append_left hlt, List.getElem?_append_left hk, h.moved]
    · have hle := Nat.le_of_not_lt hk
      rw [h.behind k hle, List.getElem?_append_right hle, List.getElem?_append_right (h.length_eq ▸ hle),
        h.length_eq]
  behind k hk := by
    apply h.behind
    rw [List.length_append] at hk
    omega

theorem map (g : α → β) : Rearranged π (xs.map g) (ys.map g) where
  moved k := by rw [List.getElem?_map, List.getElem?_map, h.moved]
  behind k hk := h.behind k (List.length_map g ▸ hk)

/-- What is at the same place in both was not moved. -/
theorem fixed (hnodup : xs.Nodup) {k : Nat} {a : α} (hk : xs[k]? = some a) (hk' : ys[k]? = some a) :
    π k = k := by
  have hsource : xs[π.symm k]? = some a := by
    rw [← h.moved, Equiv.apply_symm_apply]
    exact hk'
  have hlt := (List.getElem?_eq_some_iff.mp hk).1
  exact π.eq_symm_apply.mp ((List.getElem?_inj hlt hnodup).mp (hk.trans hsource.symm))

/-- **What is found by its key is found where it was moved to.** -/
theorem findIdx?_key [BEq β] [LawfulBEq β] {key : α → β} (hnodup : (xs.map key).Nodup) (b : β) :
    ys.findIdx? (key · == b) = (xs.findIdx? (key · == b)).map π := by
  cases hfound : xs.findIdx? (key · == b) with
  | none =>
    rw [Option.map_none, List.findIdx?_eq_none_iff]
    intro a ha
    exact List.findIdx?_eq_none_iff.mp hfound a (h.mem_iff.mp ha)
  | some k =>
    obtain ⟨hk, hkey, -⟩ := List.findIdx?_eq_some_iff_getElem.mp hfound
    rw [Option.map_some]
    cases hfound' : ys.findIdx? (key · == b) with
    | none =>
      have hnone := List.findIdx?_eq_none_iff.mp hfound' _ (h.mem_iff.mpr (List.getElem_mem hk))
      rw [hkey] at hnone
      cases hnone
    | some j =>
      -- both are the only place with that key
      obtain ⟨hj, hkey', -⟩ := List.findIdx?_eq_some_iff_getElem.mp hfound'
      have hmap : (xs.map key)[k]? = some b := by
        rw [List.getElem?_map, List.getElem?_eq_getElem hk, Option.map_some, beq_iff_eq.mp hkey]
      have hmap' : (ys.map key)[j]? = some b := by
        rw [List.getElem?_map, List.getElem?_eq_getElem hj, Option.map_some, beq_iff_eq.mp hkey']
      have hsource : (xs.map key)[π.symm j]? = some b := by
        rw [← (h.map key).moved, Equiv.apply_symm_apply]
        exact hmap'
      rw [Option.some.injEq, ← Equiv.symm_apply_eq]
      have hlt := (List.getElem?_eq_some_iff.mp hsource).1
      exact (List.getElem?_inj hlt hnodup).mp (hsource.trans hmap.symm)

/-- The elements with their places. -/
theorem zipIdx_perm : (xs.zipIdx.map fun p => (p.1, π p.2)).Perm ys.zipIdx := by
  have hnodup (zs : List α) : zs.zipIdx.Nodup := by
    refine List.Nodup.of_map Prod.snd ?_
    rw [List.zipIdx_map_snd]
    exact List.nodup_range'
  have hmapped : (xs.zipIdx.map fun p => (p.1, π p.2)).Nodup := by
    refine (hnodup xs).map fun p q hpq => ?_
    rw [Prod.mk.injEq, π.apply_eq_iff_eq] at hpq
    exact Prod.ext hpq.1 hpq.2
  rw [List.perm_ext_iff_of_nodup hmapped (hnodup ys)]
  rintro ⟨a, k⟩
  rw [List.mem_zipIdx_iff_getElem?, List.mem_map]
  constructor
  · rintro ⟨⟨b, j⟩, hb, hbj⟩
    cases hbj
    rw [h.moved]
    exact List.mem_zipIdx_iff_getElem?.mp hb
  · intro hk
    refine ⟨(a, π.symm k), ?_, by rw [Equiv.apply_symm_apply]⟩
    rw [List.mem_zipIdx_iff_getElem?, ← h.moved, Equiv.apply_symm_apply]
    exact hk

end Rearranged

/-! ## Renamings -/

/-- The words of module data and their offsets. -/
def wordAt : Nat ≃ {offset : Int // 0 ≤ offset ∧ offset % wordBytes = 0} where
  toFun k := ⟨wordOffset 0 k, by unfold wordOffset wordBytes; omega⟩
  invFun offset := (offset.val / wordBytes).toNat
  left_inv k := by
    show ((0 + wordBytes * (k : Int)) / wordBytes).toNat = k
    unfold wordBytes
    omega
  right_inv := by
    rintro ⟨offset, hpos, hword⟩
    apply Subtype.ext
    show 0 + wordBytes * ((offset / wordBytes).toNat : Int) = offset
    unfold wordBytes at *
    omega

/-- New places for the words of module data and for imports. The words of the system module keep theirs. -/
structure Renaming where
  words : Equiv.Perm Nat
  imports : Equiv.Perm Nat
  handle_fixed : words 0 = 0
  path_fixed : words 1 = 1

namespace Renaming

variable (ρ : Renaming)

/-- The new offset of what was at an offset in module data. -/
def offset : Equiv.Perm Int := ρ.words.extendDomain wordAt

theorem offset_word (k : Nat) : ρ.offset (wordOffset 0 k) = wordOffset 0 (ρ.words k) :=
  ρ.words.extendDomain_apply_image wordAt k

@[simp]
theorem offset_sysOffset : ρ.offset sysOffset = sysOffset := by
  have hword := ρ.offset_word 0
  rw [ρ.handle_fixed] at hword
  exact hword

@[simp]
theorem offset_sysPathOffset : ρ.offset sysPathOffset = sysPathOffset := by
  have hword := ρ.offset_word 1
  rw [ρ.path_fixed] at hword
  exact hword

/-- An offset that changes is that of a word that is moved. -/
theorem word_of_moved {o : Int} (h : ρ.offset o ≠ o) : ∃ k, o = wordOffset 0 k ∧ ρ.words k ≠ k := by
  have hword : 0 ≤ o ∧ o % wordBytes = 0 := by
    by_contra hnot
    exact h (ρ.words.extendDomain_apply_not_subtype wordAt hnot)
  obtain ⟨k, hk⟩ := wordAt.surjective ⟨o, hword⟩
  have ho : o = wordOffset 0 k := congrArg Subtype.val hk.symm
  refine ⟨k, ho, fun hfixed => h ?_⟩
  rw [ho, ρ.offset_word, hfixed]

end Renaming

/-- The middle operand is the place of an import. -/
def Opcode.importInMiddle : Opcode → Bool
  | .mframe | .mcall => true
  | _ => false

section Rename

variable (ρ : Renaming)

/-- An operand with new offsets in module data. -/
def Operand.rename : Operand → Operand
  | .mp offset => .mp (ρ.offset offset)
  | .mpIndirect base offset => .mpIndirect (ρ.offset base) offset
  | operand => operand

/-- An operand that is the place of an import. -/
def Operand.renameImport : Operand → Operand
  | .imm (.ofNat index) => .imm (ρ.imports index : Nat)
  | operand => operand

/-- The middle operand of an operation. -/
def Operand.renameMiddle (opcode : Opcode) (o : Operand) : Operand :=
  if opcode.importInMiddle then o.renameImport ρ else o.rename ρ

/-- An instruction with new offsets in module data and new places of imports. -/
def Instruction.rename (i : Instruction) : Instruction where
  opcode := i.opcode
  src := i.src.rename ρ
  mid := i.mid.renameMiddle ρ i.opcode
  dst := i.dst.rename ρ

/-- A line with new offsets and places. -/
def Line.rename (line : Line) : Line := { line with instruction := line.instruction.rename ρ }

/-- A fragment with new offsets and places. -/
def Fragment.rename (f : Fragment) : Fragment := { f with code := f.code.map (Instruction.rename ρ) }

/-- A data item with a new offset. -/
def DataItem.rename : DataItem → DataItem
  | .bytes offset values => .bytes (ρ.offset offset) values
  | .words offset values => .words (ρ.offset offset) values
  | .string offset value => .string (ρ.offset offset) value
  | .reals offset values => .reals (ρ.offset offset) values
  | .longs offset values => .longs (ρ.offset offset) values
  | .array offset typeId length => .array (ρ.offset offset) typeId length
  | .index offset element => .index (ρ.offset offset) element
  | .pop => .pop

@[simp]
theorem Operand.rename_mp (o : Int) : (Operand.mp o).rename ρ = .mp (ρ.offset o) := rfl

@[simp]
theorem Operand.rename_imm (value : Int) : (Operand.imm value).rename ρ = .imm value := rfl

@[simp]
theorem Operand.rename_fp (o : Int) : (Operand.fp o).rename ρ = .fp o := rfl

@[simp]
theorem Operand.rename_fpIndirect (base o : Int) :
    (Operand.fpIndirect base o).rename ρ = .fpIndirect base o := rfl

@[simp]
theorem Slot.rename_operand (slot : Slot) : slot.operand.rename ρ = slot.operand := rfl

@[simp]
theorem Operand.renameMiddle_absent (opcode : Opcode) : Operand.absent.renameMiddle ρ opcode = .absent :=
  ite_self _

@[simp]
theorem Slot.renameMiddle_operand (opcode : Opcode) (slot : Slot) :
    slot.operand.renameMiddle ρ opcode = slot.operand :=
  ite_self _

/-- A number may be the place of an import. -/
@[simp]
theorem Operand.renameMiddle_imm (opcode : Opcode) (index : Nat) : (Operand.imm index).renameMiddle ρ opcode =
    .imm (if opcode.importInMiddle then ρ.imports index else index : Nat) := by
  unfold Operand.renameMiddle
  split <;> rfl

@[simp]
theorem Instruction.rename_ternary (opcode : Opcode) (src mid dst : Operand) :
    (Instruction.ternary opcode src mid dst).rename ρ =
      .ternary opcode (src.rename ρ) (mid.renameMiddle ρ opcode) (dst.rename ρ) := rfl

@[simp]
theorem Instruction.rename_binary (opcode : Opcode) (src dst : Operand) :
    (Instruction.binary opcode src dst).rename ρ = .binary opcode (src.rename ρ) (dst.rename ρ) := by
  simp [Instruction.rename, Instruction.binary]

@[simp]
theorem Instruction.rename_unary (opcode : Opcode) (dst : Operand) :
    (Instruction.unary opcode dst).rename ρ = .unary opcode (dst.rename ρ) :=
  Instruction.rename_binary ρ opcode .absent dst

@[simp]
theorem Instruction.rename_plain (opcode : Opcode) : (Instruction.plain opcode).rename ρ = .plain opcode :=
  Instruction.rename_unary ρ opcode .absent

@[simp]
theorem Line.rename_mk (i : Instruction) (fixup : Fixup) :
    (Line.mk i fixup).rename ρ = ⟨i.rename ρ, fixup⟩ := rfl

@[simp]
theorem moveLine_rename (ty : Ty) (src dst : Operand) :
    (moveLine ty src dst).rename ρ = moveLine ty (src.rename ρ) (dst.rename ρ) := by
  simp [moveLine]

end Rename

/-! ## Contexts -/

/-- A cell without the text of its string. -/
def Cell.blank : Cell → Cell
  | .string _ => .string ""
  | cell => cell

theorem Cell.isPointer_blank (cell : Cell) : cell.blank.isPointer = cell.isPointer := by
  cases cell <;> rfl

theorem Cell.eq_of_blank {cell cell' : Cell} (h : cell'.blank = cell.blank)
    (hcell : ∀ value, cell ≠ .string value) : cell' = cell := by
  cases cell with
  | string value => exact absurd rfl (hcell value)
  | handle | long | real | global =>
    cases cell' with
    | string => cases h
    | handle | long | real | global => exact h

theorem Context.findGlobal?_blank (name : String) (index : Nat) (cells : List Cell) :
    findGlobal? name index (cells.map Cell.blank) = findGlobal? name index cells := by
  induction cells generalizing index with
  | nil => rfl
  | cons cell cells ih =>
    cases cell with
    | global n ty =>
      show (if n = name then _ else findGlobal? name (index + 1) (cells.map Cell.blank)) = _
      rw [ih]
      rfl
    | handle | string | long | real => exact ih (index + 1)

namespace Context

/-- `c'` is `c` with other places for strings and for imports. -/
structure Renamed (ρ : Renaming) (c c' : Context) : Prop where
  functions : ∀ name, c'.program.function? name = c.program.function? name
  cells : Rearranged ρ.words c.cells c'.cells
  distinct : c.cells.Nodup
  /-- Only strings are moved. -/
  blank : c'.cells.map Cell.blank = c.cells.map Cell.blank
  natives : Rearranged ρ.imports c.natives c'.natives
  named : (c.natives.map SysFunction.name).Nodup

namespace Renamed

variable {ρ : Renaming} {c c' : Context} (h : Renamed ρ c c')

include h

theorem of_log (log log' : Log) : Renamed ρ { c with log } { c' with log := log' } :=
  ⟨h.functions, h.cells, h.distinct, h.blank, h.natives, h.named⟩

theorem moduleData_eq : c'.moduleData = c.moduleData := by
  have hblank (cells : List Cell) : (cells.map Cell.blank).map Cell.isPointer = cells.map Cell.isPointer := by
    rw [List.map_map]
    exact List.map_congr_left fun cell _ => cell.isPointer_blank
  unfold moduleData
  rw [← hblank, h.blank, hblank]

theorem global?_eq (name : String) : c'.global? name = c.global? name := by
  unfold global?
  rw [← findGlobal?_blank, h.blank, findGlobal?_blank]

/-- What is no string keeps its place. -/
theorem words_fixed {k : Nat} {cell : Cell} (hk : c.cells[k]? = some cell)
    (hcell : ∀ value, cell ≠ .string value) : ρ.words k = k := by
  have hblank : (c'.cells.map Cell.blank)[k]? = some cell.blank := by
    rw [h.blank, List.getElem?_map, hk, Option.map_some]
  rw [List.getElem?_map, Option.map_eq_some_iff] at hblank
  obtain ⟨cell', hk', heq⟩ := hblank
  rw [Cell.eq_of_blank heq hcell] at hk'
  exact h.cells.fixed h.distinct hk hk'

theorem offset_global {name : String} {slot : GlobalSlot} (hglobal : c.global? name = some slot) :
    ρ.offset slot.offset = slot.offset := by
  obtain ⟨k, hk, hoffset⟩ := cell_of_global? hglobal
  rw [hoffset, ρ.offset_word, h.words_fixed hk nofun]

theorem offsetOf?_eq (cell : Cell) : c'.offsetOf? cell = (c.offsetOf? cell).map ρ.offset := by
  have hnodup : (c.cells.map id).Nodup := by rw [List.map_id]; exact h.distinct
  have hfound : c'.cells.idxOf? cell = (c.cells.idxOf? cell).map ρ.words :=
    h.cells.findIdx?_key hnodup cell
  unfold offsetOf?
  rw [hfound, Option.map_map, Option.map_map]
  congr 1
  funext k
  exact (ρ.offset_word k).symm

/-- A cell that is new in both is placed at the same offset. -/
theorem alike_place {cell : Cell} (hnew : cell ∉ c.cells) :
    Alike Eq (Renamed ρ) (fun o o' => o' = ρ.offset o) (place cell c) (place cell c') := by
  have hnext : ρ.offset c.moduleData.nextOffset = c.moduleData.nextOffset := by
    rw [nextOffset_moduleData, ρ.offset_word, h.cells.behind _ (Nat.le_refl _)]
  unfold place
  rw [h.moduleData_eq]
  by_cases hroom : c.moduleData.nextOffset ≤ operandMax - wordBytes
  · have hrun (log : Log) : reserveWord c.moduleData cell.tag cell.isPointer log =
        .ok (c.moduleData.nextOffset, ⟨c.moduleData.words ++ [cell.isPointer]⟩)
          (log.push (placedEvent c.moduleData.nextOffset cell)) := by
      unfold reserveWord ModuleData.allocate
      rw [if_pos hroom]
      rfl
    rw [hrun, hrun]
    refine .ok hnext.symm ⟨h.functions, h.cells.append [cell], ?_, ?_, h.natives, h.named⟩
    · refine List.nodup_append.mpr ⟨h.distinct, List.nodup_singleton cell, fun a ha b hb hab => hnew ?_⟩
      rw [List.mem_singleton.mp hb] at hab
      exact hab ▸ ha
    · rw [List.map_append, List.map_append, h.blank]
  · have hrun (log : Log) : reserveWord c.moduleData cell.tag cell.isPointer log =
        .error (.moduleDataFull cell.tag c.moduleData.nextOffset) log := by
      unfold reserveWord ModuleData.allocate
      rw [if_neg hroom]
      rfl
    rw [hrun, hrun]
    exact .error rfl

end Renamed

variable {ρ : Renaming}

/-- **A cell is found or placed in both,** at places that correspond. -/
theorem parallel_intern (cell : Cell) :
    Parallel Eq (Renamed ρ) (fun o o' => o' = ρ.offset o) (intern cell) (intern cell) := by
  intro c c' h
  by_cases hmem : cell ∈ c.cells
  · obtain ⟨o, hoffset, hintern⟩ := intern_of_mem hmem
    obtain ⟨o', hoffset', hintern'⟩ := intern_of_mem (h.cells.mem_iff.mpr hmem)
    rw [hintern, hintern']
    rw [h.offsetOf?_eq, hoffset, Option.map_some, Option.some.injEq] at hoffset'
    exact .ok hoffset'.symm h
  · rw [intern_of_not_mem hmem, intern_of_not_mem fun hmem' => hmem (h.cells.mem_iff.mp hmem')]
    exact h.alike_place hmem

/-- **An import is found or added in both,** at places that correspond. -/
theorem parallel_nativeImport (native : SysFunction) :
    Parallel Eq (Renamed ρ) (fun k k' => k' = ρ.imports k) (nativeImport native) (nativeImport native) := by
  intro c c' h
  have hfound := h.natives.findIdx?_key h.named native.name
  unfold nativeImport
  cases hindex : c.natives.findIdx? (·.name == native.name) with
  | some k =>
    rw [hindex, Option.map_some] at hfound
    rw [hfound]
    exact .ok rfl h
  | none =>
    rw [hindex, Option.map_none] at hfound
    rw [hfound]
    refine .ok ?_ ⟨h.functions, h.cells, h.distinct, h.blank, h.natives.append [native], ?_⟩
    · rw [h.natives.length_eq, h.natives.behind _ (Nat.le_refl _)]
    · have hadd := nodup_addNew h.named native
      unfold addNew at hadd
      rw [if_neg (findIdx?_key_eq_none_iff.mp hindex)] at hadd
      exact hadd

end Context
end DisBackend
