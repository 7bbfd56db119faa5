import DisBackend.Ssa.Instr
import DisBackend.Storage

/-!
# `Proofs.Semantics.Datum` — words, what they hold and how to compute with them

Programs and machine code work on the same words. A word holds an integer, a real, a string, a reference to
an object, or the address at which a caller expects a result; truth values are the integers 0 and 1. What
the operations do is said once, for both.

Two things are left to the platform: the arithmetic of reals, of which only the exchange of operands in
sums and products is used, and what a new object holds before it is written.

## Contents

* `Datum`, `Platform`;
* `Kind`, `Platform.compute?`, `Platform.compare?` — operations and comparisons;
* `Area`, `Area.word?`, `Area.store?` — memory, addressed by byte offsets.
-/

namespace DisBackend

open Ssa (Comparison MathOp Ty)

/-- What a word of memory holds. -/
inductive Datum where
  | int (value : Int64)
  | real (value : Double)
  | string (value : String)
  /-- A reference to the object with that number. -/
  | object (number : Nat)
  /-- The address at which the caller expects the result. -/
  | result
  deriving DecidableEq, Repr, Inhabited

/-- What is not fixed by programs or machine code alone. -/
structure Platform where
  add : Double → Double → Double
  subtract : Double → Double → Double
  multiply : Double → Double → Double
  divide : Double → Double → Double
  /-- How two reals compare; there is no answer if one of them is not a number. -/
  order : Double → Double → Option Ordering
  /-- What word `word` of object number `number` holds at first. -/
  fresh : (number word : Nat) → Datum
  add_comm : ∀ a b, add a b = add b a
  multiply_comm : ∀ a b, multiply a b = multiply b a

/-! ## Operations -/

/-- The three kinds of words that can be computed with. -/
inductive Kind where
  | word | real | string
  deriving DecidableEq, Repr

/-- The kind of words that hold values of a type. Objects are not computed with. -/
def Ssa.Ty.kind? : Ty → Option Kind
  | .int | .bool => some .word
  | .real => some .real
  | .string => some .string
  | .object => none

/-- An operation on integers. Results wrap, division goes toward zero, and there is none by zero. -/
def Ssa.MathOp.onIntegers? : MathOp → Int64 → Int64 → Option Int64
  | .add, a, b => some (a + b)
  | .subtract, a, b => some (a - b)
  | .multiply, a, b => some (a * b)
  | .divide, a, b => if b = 0 then none else some (a / b)
  | .modulo, a, b => if b = 0 then none else some (a % b)
  | .and, a, b => some (a &&& b)
  | .or, a, b => some (a ||| b)
  | .xor, a, b => some (a ^^^ b)
  | .leftShift, a, b => some (a <<< b)
  | .rightShift, a, b => some (a >>> b)

/-- A comparison holds of two words that compare in a given way. -/
def Ssa.Comparison.holds : Comparison → Option Ordering → Bool
  | .equal, o => o == some .eq
  | .notEqual, o => o != some .eq
  | .less, o => o == some .lt
  | .lessOrEqual, o => o == some .lt || o == some .eq
  | .greater, o => o == some .gt
  | .greaterOrEqual, o => o == some .gt || o == some .eq

/-- The word of a truth value. -/
def Datum.truth (b : Bool) : Datum := .int (if b then 1 else 0)

namespace Platform

variable (P : Platform)

/-- An operation on reals, where there is one. -/
def onReals? : MathOp → Double → Double → Option Double
  | .add, a, b => some (P.add a b)
  | .subtract, a, b => some (P.subtract a b)
  | .multiply, a, b => some (P.multiply a b)
  | .divide, a, b => some (P.divide a b)
  | _, _, _ => none

/-- `a op b`, for words of one kind. Strings can be joined. -/
def compute? (op : MathOp) : Kind → (a b : Datum) → Option Datum
  | .word, .int a, .int b => (op.onIntegers? a b).map .int
  | .real, .real a, .real b => (P.onReals? op a b).map .real
  | .string, .string a, .string b => if op = .add then some (.string (a ++ b)) else none
  | _, _, _ => none

/-- How two words of one kind compare. Strings are compared by their characters. -/
def order? : Kind → (a b : Datum) → Option (Option Ordering)
  | .word, .int a, .int b => some (some (compare a b))
  | .real, .real a, .real b => some (P.order a b)
  | .string, .string a, .string b => some (some (compare a b))
  | _, _, _ => none

/-- Whether `a op b`, for words of one kind. -/
def compare? (op : Comparison) (kind : Kind) (a b : Datum) : Option Bool :=
  (P.order? kind a b).map op.holds

/-- The operands of sums, products and bitwise operations may be exchanged. Strings are no numbers. -/
theorem compute?_comm {op : MathOp} (hop : op.isCommutative) {kind : Kind} (hkind : kind ≠ .string)
    (a b : Datum) : P.compute? op kind a b = P.compute? op kind b a := by
  cases kind with
  | string => exact absurd rfl hkind
  | word =>
    cases a <;> cases b <;> try rfl
    rename_i a b
    show (op.onIntegers? a b).map Datum.int = (op.onIntegers? b a).map Datum.int
    cases op <;> simp only [MathOp.isCommutative, Bool.false_eq_true] at hop <;>
      simp only [MathOp.onIntegers?, Int64.add_comm a b, Int64.mul_comm a b, Int64.and_comm a b,
        Int64.or_comm a b, Int64.xor_comm a b]
  | real =>
    cases a <;> cases b <;> try rfl
    rename_i a b
    show (P.onReals? op a b).map Datum.real = (P.onReals? op b a).map Datum.real
    cases op <;> simp only [MathOp.isCommutative, Bool.false_eq_true] at hop <;>
      simp only [onReals?, P.add_comm a b, P.multiply_comm a b]

end Platform

/-! ## Memory -/

/-- A stretch of memory, word after word: a frame, the module data or an object. -/
abbrev Area := List Datum

namespace Area

/-- The word at a byte offset. Words lie at multiples of their size. -/
def word? (area : Area) (offset : Int) : Option Datum :=
  if 0 ≤ offset ∧ offset % wordBytes = 0 then area[(offset / wordBytes).toNat]? else none

/-- The area with another word at a byte offset where it has one. -/
def store? (area : Area) (offset : Int) (w : Datum) : Option Area :=
  if (area.word? offset).isSome then some (area.set (offset / wordBytes).toNat w) else none

theorem word?_wordOffset (area : Area) (n : Nat) : area.word? (wordOffset 0 n) = area[n]? := by
  have hpos : 0 ≤ wordOffset 0 n ∧ wordOffset 0 n % wordBytes = 0 := by
    unfold wordOffset wordBytes; omega
  have hindex : (wordOffset 0 n / wordBytes).toNat = n := by
    unfold wordOffset wordBytes; omega
  rw [word?, if_pos hpos, hindex]

/-- A word that is there has a number, and its offset is that of the number. -/
theorem number_of_word? {area : Area} {offset : Int} {w : Datum} (h : area.word? offset = some w) :
    ∃ n, offset = wordOffset 0 n ∧ area[n]? = some w := by
  unfold word? at h
  by_cases hpos : 0 ≤ offset ∧ offset % wordBytes = 0
  · rw [if_pos hpos] at h
    refine ⟨(offset / wordBytes).toNat, ?_, h⟩
    unfold wordOffset wordBytes at *
    omega
  · rw [if_neg hpos] at h
    cases h

theorem store?_wordOffset {area : Area} {n : Nat} (hn : n < area.length) (w : Datum) :
    area.store? (wordOffset 0 n) w = some (area.set n w) := by
  have hindex : (wordOffset 0 n / wordBytes).toNat = n := by
    unfold wordOffset wordBytes; omega
  rw [store?, word?_wordOffset, List.getElem?_eq_getElem hn, hindex]
  rfl

/-- A word that can be read can be written. -/
theorem exists_store? {area : Area} {offset : Int} (h : (area.word? offset).isSome) (w : Datum) :
    ∃ area' : Area, area.store? offset w = some area' :=
  ⟨_, if_pos h⟩

section Store

variable {area area' : Area} {offset : Int} {w : Datum}

theorem set_of_store? (h : area.store? offset w = some area') :
    ∃ n, offset = wordOffset 0 n ∧ n < area.length ∧ area' = area.set n w := by
  cases hold : area.word? offset with
  | none =>
    rw [store?, hold] at h
    cases h
  | some old =>
    obtain ⟨n, rfl, hn⟩ := number_of_word? hold
    have hlt : n < area.length := (List.getElem?_eq_some_iff.mp hn).1
    rw [store?_wordOffset hlt, Option.some.injEq] at h
    exact ⟨n, rfl, hlt, h.symm⟩

theorem length_store? (h : area.store? offset w = some area') : area'.length = area.length := by
  obtain ⟨n, -, -, rfl⟩ := set_of_store? h
  exact List.length_set

/-- What was written is read back. -/
theorem word?_store?_self (h : area.store? offset w = some area') : area'.word? offset = some w := by
  obtain ⟨n, rfl, hlt, rfl⟩ := set_of_store? h
  rw [word?_wordOffset, List.getElem?_set_self hlt]

/-- The other words stay as they are. -/
theorem word?_store?_of_ne (h : area.store? offset w = some area') {other : Int}
    (hne : other ≠ offset) : area'.word? other = area.word? other := by
  obtain ⟨n, rfl, hlt, rfl⟩ := set_of_store? h
  unfold word?
  by_cases hpos : 0 ≤ other ∧ other % wordBytes = 0
  · rw [if_pos hpos, if_pos hpos, List.getElem?_set_ne]
    unfold wordOffset wordBytes at *
    omega
  · rw [if_neg hpos, if_neg hpos]

end Store
end Area
end DisBackend
