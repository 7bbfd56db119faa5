import DisBackend.Proofs.Module.Extent
import DisBackend.Proofs.Module.RoundTrip

/-!
# `Proofs.Module.Positions` — reading by position

The readers of a module carry the bytes that are left. A machine keeps the whole file in one place and
moves a position over it: it takes slices and elements, which have to exist, adds to the position, which
has to stay within the file, tells cases apart by a few bits, and goes through a loop until a mark says
that it ends. Here the file is read in that way, and whatever goes wrong in it is a `Slip`.

No file whatsoever makes this reader slip, and it gives the answers of `Module.decode`.

## Contents

* `Slip`, `Scanner` — reading by position, and what must not happen;
* `slice`, `element`, `moveTo` — steps that can slip;
* `operand`, `take`, `text`, …, `whole`, `decode` — the readers by position;
* `SameAnswer`, `Follows` and its laws — both ways of reading give the same answer;
* `follows_operand`, …, `follows_whole` — for every reader;
* `Module.decode_safe` — no slip, and no more than the file holds.
-/

namespace DisBackend
namespace ByPosition

/-- What a reader must not do. -/
inductive Slip where
  /-- Takes a slice that does not lie within a list of `length` bytes. -/
  | slice (start stop length : Nat)
  /-- Takes an element that a list of `length` bytes does not have. -/
  | element (index length : Nat)
  /-- Moves past the end of the file. The length of a file fits a word of the machine, so that a sum must
  come to more before it overflows. -/
  | position (position : Nat)
  /-- Comes to a case that there is not. -/
  | deadBranch
  /-- Goes through a loop more often than there are bytes. -/
  | endless
  deriving DecidableEq, Repr

/-- Why there is no answer. -/
inductive Failure where
  /-- It is for the file. -/
  | file (e : ReadError)
  /-- It is for the reader. -/
  | slip (s : Slip)
  deriving DecidableEq, Repr

/-- A computation that moves a position. -/
abbrev Scanner := StateT Nat (Except Failure)

/-! ## Steps that can slip -/

/-- The bytes from `start` on and before `stop`. -/
def slice (bytes : Bytes) (start stop : Nat) : Scanner Bytes :=
  if start ≤ stop ∧ stop ≤ bytes.length then return (bytes.drop start).take (stop - start)
  else throw (.slip (.slice start stop bytes.length))

/-- One byte. -/
def element (bytes : Bytes) (index : Nat) : Scanner UInt8 :=
  match bytes[index]? with
  | some byte => return byte
  | none => throw (.slip (.element index bytes.length))

/-- Goes on at a position. -/
def moveTo (bytes : Bytes) (position : Nat) : Scanner Unit :=
  if position ≤ bytes.length then set position else throw (.slip (.position position))

/-- Finds an error in the file. -/
def reject {α : Type} (e : ReadError) : Scanner α := throw (.file e)

/-! ## Simple readers -/

/-- The number at the start of `bytes`, and how many bytes it takes. -/
def number (bytes : Bytes) : Scanner (Option (Int × Nat)) := do
  match bytes[0]? with
  | none => return none
  | some a =>
    if a.toNat < 128 then return some (signedIn 64 a.toNat, 1)
    else if a.toNat < 192 then
      match bytes[1]? with
      | none => return none
      | some b => return some (signedIn 8192 ((a.toNat - 128) * 256 + b.toNat), 2)
    else if 4 ≤ bytes.length then
      let rest ← slice bytes 1 4
      let b ← element rest 0
      let c ← element rest 1
      let d ← element rest 2
      return some (signedIn 536870912
        ((((a.toNat - 192) * 256 + b.toNat) * 256 + c.toNat) * 256 + d.toNat), 4)
    else return none

section Readers

variable (bytes : Bytes)

/-- The next number. -/
def operand (part : Part) : Scanner Int := do
  let position ← get
  let rest ← slice bytes position bytes.length
  match ← number rest with
  | none => reject (.unexpectedEnd part position)
  | some (value, length) =>
    moveTo bytes (position + length)
    return value

/-- The next number, which counts something. -/
def count (part : Part) : Scanner Nat := do
  let count ← operand bytes part
  if 0 ≤ count then return count.toNat else reject (.negativeCount part count)

/-- The next `length` bytes. -/
def take (length : Nat) (part : Part) : Scanner Bytes := do
  let position ← get
  if position + length ≤ bytes.length then
    let front ← slice bytes position (position + length)
    moveTo bytes (position + length)
    return front
  else reject (.unexpectedEnd part position)

/-- The next byte. -/
def byte (part : Part) : Scanner Nat := do
  let front ← take bytes 1 part
  return (← element front 0).toNat

/-- The next 32-bit word. -/
def word : Scanner UInt32 := do
  let front ← take bytes 4 .word
  let a ← element front 0
  let b ← element front 1
  let c ← element front 2
  let d ← element front 3
  return UInt32.ofNat (numberOf [a, b, c, d])

/-- The next 64-bit word. -/
def long : Scanner UInt64 := do
  let high ← word bytes
  let low ← word bytes
  return UInt64.ofNat (high.toNat * 4294967296 + low.toNat)

/-- The text with the given bytes. -/
def textAt (position : Nat) (front : Bytes) : Scanner String :=
  match textOf position front with
  | .ok s => return s
  | .error e => reject e

/-- The next text, up to a zero byte. -/
def text : Scanner String := do
  let start ← get
  let rest ← slice bytes start bytes.length
  match rest.findIdx? (· = 0) with
  | none => reject (.unterminatedString start)
  | some length =>
    let front ← slice bytes start (start + length)
    let s ← textAt start front
    moveTo bytes (start + length + 1)
    return s

/-- `count` times what `scan` reads. -/
def listFrom {α : Type} (scan : Nat → Scanner α) : (count index : Nat) → Scanner (List α)
  | 0, _ => return []
  | count + 1, index => do
    let x ← scan index
    let xs ← listFrom scan count (index + 1)
    return x :: xs

/-- `count` times what `scan` reads. -/
def list {α : Type} (count : Nat) (scan : Scanner α) : Scanner (List α) :=
  listFrom (fun _ => scan) count 0

/-! ## Parts of a module -/

/-- A source or destination operand in the given mode. -/
def outer (mode pc : Nat) : Scanner Operand := do
  match mode with
  | 0 => return .mp (← operand bytes .operand)
  | 1 => return .fp (← operand bytes .operand)
  | 2 => return .imm (← operand bytes .operand)
  | 3 => return .absent
  | 4 =>
    let base ← operand bytes .operand
    return .mpIndirect base (← operand bytes .operand)
  | 5 =>
    let base ← operand bytes .operand
    return .fpIndirect base (← operand bytes .operand)
  | _ => reject (.invalidAddressMode mode pc)

/-- A middle operand. Two bits tell four cases apart, and there is no fifth. -/
def middle (mode : Nat) : Scanner Operand := do
  match mode with
  | 0 => return .absent
  | 1 => return .imm (← operand bytes .middleOperand)
  | 2 => return .fp (← operand bytes .middleOperand)
  | 3 => return .mp (← operand bytes .middleOperand)
  | _ => throw (.slip .deadBranch)

/-- The instruction at `pc`. -/
def instruction (pc : Nat) : Scanner Instruction := do
  let code ← byte bytes .opcode
  match Opcode.ofByte? (UInt8.ofNat code) with
  | none => reject (.unknownOpcode code pc)
  | some opcode =>
    let address ← byte bytes .addressMode
    let mid ← middle bytes (address / 64)
    let src ← outer bytes (address / 8 % 8) pc
    let dst ← outer bytes (address % 8) pc
    return ⟨opcode, src, mid, dst⟩

/-- A descriptor. -/
def descriptor : Scanner TypeDescriptor := do
  let id ← operand bytes .typeDescriptorId
  let size ← operand bytes .typeDescriptorSize
  let length ← count bytes .typeDescriptorMap
  return ⟨id, size, ← take bytes length .typeDescriptorMap⟩

/-- The values of a data item. -/
def payload (kind : DataKind) (count : Nat) (offset : Int) : Scanner DataItem := do
  match kind with
  | .bytes => return .bytes offset (← take bytes count .byteData)
  | .words => return .words offset (← list count (word bytes))
  | .string =>
    let start ← get
    let front ← take bytes count .stringData
    return .string offset (← textAt start front)
  | .reals => return .reals offset (← list count (return ⟨← long bytes⟩))
  | .longs => return .longs offset (← list count (return (← long bytes).toInt64))
  | .array =>
    let typeId ← word bytes
    return .array offset typeId.toInt32 (← word bytes).toInt32
  | .index =>
    let offset ← word bytes
    return .index offset.toInt32.toInt (← word bytes).toInt32
  | .pop => return .pop

/-- A data item, or none at the end of the data section. -/
def item? : Scanner (Option DataItem) := do
  let header ← byte bytes .dataItem
  if header = 0 then return none
  match DataKind.ofCode? (header / 16) with
  | none => reject (.unknownDataKind (header / 16))
  | some kind =>
    let count ← if header % 16 = 0 then count bytes .dataItem else pure (header % 16)
    let offset ← operand bytes .dataOffset
    return some (← payload bytes kind count offset)

/-- Data items up to the end of the section; `rounds` are left. -/
def items : (rounds : Nat) → Scanner (List DataItem)
  | 0 => throw (.slip .endless)
  | rounds + 1 => do
    match ← item? bytes with
    | none => return []
    | some item => return item :: (← items rounds)

/-- The data section. -/
def data : Scanner (List DataItem) := items bytes (bytes.length + 1)

/-- A link. -/
def link : Scanner Link := do
  let pc ← operand bytes .linkPc
  let typeId ← operand bytes .linkType
  let signature ← word bytes
  return ⟨pc, typeId, signature, ← text bytes⟩

/-- An import. -/
def imported : Scanner Import := do
  let signature ← word bytes
  return ⟨signature, ← text bytes⟩

/-- A group of imports. -/
def importGroup : Scanner (List Import) := do
  let number ← count bytes .imported
  list number (imported bytes)

/-- A case of a handler. -/
def exceptionCase : Scanner ExceptionCase := do
  let name ← text bytes
  return ⟨name, ← operand bytes .exceptionPc⟩

/-- A handler. -/
def handler : Scanner Handler := do
  let exceptionOffset ← operand bytes .handlerExceptionOffset
  let pc1 ← operand bytes .handlerRange
  let pc2 ← operand bytes .handlerRange
  let typeId ← operand bytes .handlerType
  let labels ← operand bytes .handlerLabels
  let cases ← list (labels % 65536).toNat (exceptionCase bytes)
  let wildcardPc ← operand bytes .handlerWildcard
  return ⟨exceptionOffset, pc1, pc2, typeId, labels / 65536, cases, wildcardPc⟩

/-! ## The whole -/

/-- The magic number; the signature of a signed module is skipped. -/
def magic : Scanner Int := do
  let magic ← operand bytes .magic
  if magic = unsignedMagic then return magic
  else if magic = signedMagic then
    let length ← count bytes .signature
    let _ ← take bytes length .signature
    return magic
  else reject (.badMagic magic)

/-- The import table, if the flags announce one. -/
def imports (flags : Flags) : Scanner (List (List Import)) := do
  if flags.contains Flags.imports then
    let number ← count bytes .importGroup
    let groups ← list number (importGroup bytes)
    let _ ← operand bytes .importTerminator
    return groups
  else return []

/-- The handler table, if the flags announce one. -/
def handlers (flags : Flags) : Scanner (List Handler) := do
  if flags.contains Flags.handlers then
    let number ← count bytes .handler
    let handlers ← list number (handler bytes)
    let _ ← operand bytes .handlerTerminator
    return handlers
  else return []

/-- The source path, if there are bytes left. -/
def sourcePath : Scanner String := do
  if (← get) < bytes.length then text bytes else return ""

/-- A module. -/
def whole : Scanner Module := do
  let magic ← magic bytes
  let flags := Flags.ofInt (← operand bytes .runtimeFlags)
  let stackSize ← operand bytes .stackSize
  let codeLength ← count bytes .instruction
  let dataSize ← operand bytes .dataSize
  let typeCount ← count bytes .typeDescriptor
  let linkCount ← count bytes .link
  let entryPc ← operand bytes .entryPc
  let entryType ← operand bytes .entryType
  let code ← listFrom (instruction bytes) codeLength 0
  let types ← list typeCount (descriptor bytes)
  let data ← data bytes
  let name ← text bytes
  let links ← list linkCount (link bytes)
  let imports ← imports bytes flags
  let handlers ← handlers bytes flags
  let sourcePath ← sourcePath bytes
  return { name, magic, flags, stackSize, code, types, dataSize, data, entryPc, entryType, links,
           imports, handlers, sourcePath }

end Readers

/-- The module in a file, read by position. -/
def decode (bytes : Bytes) : Except Failure Module := (whole bytes).run' 0

end ByPosition

/-! ## The same answers -/

/-- The place in the file that an error names. -/
def ReadError.position? : ReadError → Option Nat
  | .unexpectedEnd _ position | .unterminatedString position | .invalidUtf8 position => some position
  | _ => none

namespace ByPosition

variable {α β : Type} {bytes : Bytes}

/-- Two answers that are the same: the position lies within the file, and the bytes that are left are
those from it on; or the error is the same, and the place it names lies within the file. -/
inductive SameAnswer (bytes : Bytes) :
    Except Failure (α × Nat) → Except ReadError (α × Cursor) → Prop where
  | ok {a : α} {position : Nat} (within : position ≤ bytes.length) :
      SameAnswer bytes (.ok (a, position)) (.ok (a, ⟨position, bytes.drop position⟩))
  | error {e : ReadError} (within : ∀ position ∈ e.position?, position ≤ bytes.length) :
      SameAnswer bytes (.error (.file e)) (.error e)

/-- From every position within the file, `s` gives the answer of `r`. -/
def Follows (bytes : Bytes) (s : Scanner α) (r : Reader α) : Prop :=
  ∀ position, position ≤ bytes.length →
    SameAnswer bytes (s position) (r ⟨position, bytes.drop position⟩)

section Laws

variable {s : Scanner α} {r : Reader α} {k : α → Scanner β} {k' : α → Reader β}

theorem follows_pure (a : α) : Follows bytes (pure a) (pure a) := by
  intro position hposition
  exact .ok hposition

/-- An error that names no place. -/
theorem follows_reject {e : ReadError} (h : e.position? = none) :
    Follows bytes (reject e : Scanner α) (throw e) := by
  intro position hposition
  refine .error fun p hp => ?_
  rw [h] at hp
  cases hp

/-- Going on from two answers that are the same. -/
theorem SameAnswer.bind {position : Nat} {c : Cursor} (h : SameAnswer bytes (s position) (r c))
    (h' : ∀ a position', position' ≤ bytes.length → r c = .ok (a, ⟨position', bytes.drop position'⟩) →
      SameAnswer bytes (k a position') (k' a ⟨position', bytes.drop position'⟩)) :
    SameAnswer bytes ((s >>= k) position) ((r >>= k') c) := by
  show SameAnswer bytes (s position >>= fun p => k p.1 p.2) (r c >>= fun p => k' p.1 p.2)
  generalize s position = x at h
  generalize r c = y at h h'
  cases h with
  | @ok a position' within => exact h' a position' within rfl
  | error within => exact .error within

/-- The answer without the position. -/
theorem SameAnswer.fst {x : Except Failure (α × Nat)} {y : Except ReadError (α × Cursor)}
    (h : SameAnswer bytes x y) :
    Prod.fst <$> x = (Prod.fst <$> y).mapError Failure.file ∧
    ∀ e, Prod.fst <$> y = .error e → ∀ position ∈ e.position?, position ≤ bytes.length := by
  cases h with
  | ok within =>
    refine ⟨rfl, fun e he => ?_⟩
    cases he
  | error within =>
    refine ⟨rfl, fun e he => ?_⟩
    cases he
    exact within

theorem Follows.bind_yields {Q : α → Prop} (h : Follows bytes s r) (hyields : Yields r Q)
    (h' : ∀ a, Q a → Follows bytes (k a) (k' a)) : Follows bytes (s >>= k) (r >>= k') := by
  intro position hposition
  refine (h position hposition).bind fun a position' within hread => ?_
  exact h' a (hyields _ _ _ hread) position' within

theorem Follows.bind (h : Follows bytes s r) (h' : ∀ a, Follows bytes (k a) (k' a)) :
    Follows bytes (s >>= k) (r >>= k') :=
  h.bind_yields (fun _ _ _ _ => trivial) fun a _ => h' a

theorem follows_listFrom {scan : Nat → Scanner α} {read : Nat → Reader α}
    (h : ∀ index, Follows bytes (scan index) (read index)) (count index : Nat) :
    Follows bytes (listFrom scan count index) (readListFrom read count index) := by
  induction count generalizing index with
  | zero => exact follows_pure []
  | succ count ih =>
    exact (h index).bind fun x => (ih (index + 1)).bind fun xs => follows_pure (x :: xs)

theorem follows_list {scan : Scanner α} {read : Reader α} (h : Follows bytes scan read) (count : Nat) :
    Follows bytes (list count scan) (readList count read) :=
  follows_listFrom (fun _ => h) count 0

end Laws

/-! ### Simple readers -/

theorem slice_ok {start stop : Nat} (h : start ≤ stop) (h' : stop ≤ bytes.length) :
    slice bytes start stop = pure ((bytes.drop start).take (stop - start)) := by
  unfold slice
  rw [if_pos ⟨h, h'⟩]

/-- All bytes from a position on. -/
theorem slice_end {start : Nat} (h : start ≤ bytes.length) :
    slice bytes start bytes.length = pure (bytes.drop start) := by
  rw [slice_ok h (Nat.le_refl _)]
  congr 1
  exact List.take_of_length_le (by rw [List.length_drop])

theorem moveTo_ok {position : Nat} (h : position ≤ bytes.length) : moveTo bytes position = set position := by
  unfold moveTo
  rw [if_pos h]

/-- Elements that are looked at exist. -/
theorem number_eq (bytes : Bytes) : number bytes = pure (decodeOperand bytes) := by
  rcases bytes with _ | ⟨a, rest⟩
  · rfl
  simp only [number, decodeOperand, List.getElem?_cons_zero]
  by_cases hone : a.toNat < 128
  · rw [if_pos hone, if_pos hone]
  rw [if_neg hone, if_neg hone]
  by_cases htwo : a.toNat < 192
  · rw [if_pos htwo, if_pos htwo]
    cases rest <;> rfl
  rw [if_neg htwo, if_neg htwo]
  rcases rest with _ | ⟨b, _ | ⟨c, _ | ⟨d, rest⟩⟩⟩
  · rfl
  · rfl
  · rfl
  · -- the slice has three bytes, and all three are looked at
    rw [if_pos (by simp), slice_ok (by decide) (by simp)]
    rfl

theorem get_bind_apply (k : Nat → Scanner α) (position : Nat) :
    ((get : Scanner Nat) >>= k) position = k position position := rfl

theorem follows_operand (part : Part) : Follows bytes (operand bytes part) (readOperand part) := by
  intro position hposition
  unfold operand readOperand
  rw [get_bind_apply, slice_end hposition, pure_bind, number_eq, pure_bind]
  cases hdecode : decodeOperand (bytes.drop position) with
  | none =>
    refine .error fun p hp => ?_
    cases hp
    exact hposition
  | some p =>
    have hlength := (decodeOperand_length hdecode).2
    rw [List.length_drop] at hlength
    have hwithin : position + p.2 ≤ bytes.length := by omega
    simp only [moveTo_ok hwithin, List.drop_drop]
    exact .ok hwithin

theorem follows_count (part : Part) : Follows bytes (count bytes part) (readCount part) := by
  refine (follows_operand part).bind fun count => ?_
  by_cases hpos : 0 ≤ count
  · rw [if_pos hpos, if_pos hpos]
    exact follows_pure _
  · rw [if_neg hpos, if_neg hpos]
    exact follows_reject rfl

theorem splitFront?_take {n : Nat} {xs : List α} (h : n ≤ xs.length) :
    splitFront? n xs = some (xs.take n, xs.drop n) := by
  have hsplit := splitFront?_append (xs.take n) (xs.drop n)
  rwa [List.length_take, Nat.min_eq_left h, List.take_append_drop] at hsplit

theorem splitFront?_short {n : Nat} {xs : List α} (h : xs.length < n) : splitFront? n xs = none := by
  cases hsplit : splitFront? n xs with
  | none => rfl
  | some p =>
    have hlength := length_of_splitFront? hsplit
    rw [splitFront?_eq hsplit, List.length_append] at h
    omega

theorem follows_take (length : Nat) (part : Part) :
    Follows bytes (take bytes length part) (readBytes length part) := by
  intro position hposition
  unfold take readBytes
  rw [get_bind_apply]
  by_cases hlength : position + length ≤ bytes.length
  · have hsplit : splitFront? length (bytes.drop position) = _ :=
      splitFront?_take (by rw [List.length_drop]; omega)
    rw [if_pos hlength, slice_ok (Nat.le_add_right _ _) hlength, pure_bind, moveTo_ok hlength]
    simp only [hsplit, Nat.add_sub_cancel_left, List.drop_drop]
    exact .ok hlength
  · have hsplit : splitFront? length (bytes.drop position) = none :=
      splitFront?_short (by rw [List.length_drop]; omega)
    rw [if_neg hlength]
    simp only [hsplit]
    refine .error fun p hp => ?_
    cases hp
    exact hposition

/-- A byte is the first of one byte. -/
theorem readByte_eq (part : Part) : readByte part = readBytes 1 part >>= fun front =>
    pure (front.headD 0).toNat := by
  funext c
  show _ = (readBytes 1 part c >>= fun p => _)
  unfold readByte readBytes
  rcases c with ⟨position, _ | ⟨byte, back⟩⟩ <;> rfl

theorem follows_byte (part : Part) : Follows bytes (byte bytes part) (readByte part) := by
  rw [readByte_eq]
  refine (follows_take 1 part).bind_yields (yields_bytes 1 part) fun front hlength => ?_
  obtain ⟨a, rfl⟩ := List.length_eq_one_iff.mp hlength
  exact follows_pure a.toNat

theorem follows_word : Follows bytes (word bytes) readWord := by
  refine (follows_take 4 .word).bind_yields (yields_bytes 4 .word) fun front hlength => ?_
  rcases front with _ | ⟨a, _ | ⟨b, _ | ⟨c, _ | ⟨d, _ | ⟨e, rest⟩⟩⟩⟩⟩ <;> try cases hlength
  exact follows_pure _

theorem follows_long : Follows bytes (long bytes) readLong :=
  follows_word.bind fun _ => follows_word.bind fun _ => follows_pure _

/-- The place of a text that is none is where it starts. -/
theorem textOf_error {start : Nat} {front : Bytes} {e : ReadError} (h : textOf start front = .error e) :
    e = .invalidUtf8 start := by
  unfold textOf at h
  split at h
  · cases h
  · cases h
    rfl

theorem follows_textAt {start : Nat} (h : start ≤ bytes.length) (front : Bytes) :
    Follows bytes (textAt start front) (liftM (textOf start front)) := by
  unfold textAt
  cases htext : textOf start front with
  | ok s => exact follows_pure s
  | error e =>
    intro position _
    obtain rfl := textOf_error htext
    refine .error fun p hp => ?_
    cases hp
    exact h

/-- The first zero byte, if there is one. -/
theorem findIdx?_zero {front back : Bytes} (h : (0 : UInt8) ∉ front) :
    (front ++ 0 :: back).findIdx? (· = 0) = some front.length := by
  have hnone : front.findIdx? (· = 0) = none := by
    rw [List.findIdx?_eq_none_iff]
    intro byte hbyte
    rw [decide_eq_false_iff_not]
    rintro rfl
    exact h hbyte
  rw [List.findIdx?_append, hnone, List.findIdx?_cons]
  simp

theorem follows_text : Follows bytes (text bytes) readText := by
  intro start hstart
  unfold text
  rw [get_bind_apply, slice_end hstart, pure_bind]
  by_cases hzero : (0 : UInt8) ∈ bytes.drop start
  · -- the text ends at the first zero byte, and the position goes past it
    obtain ⟨front, back, hsplit, hfree⟩ := List.eq_append_cons_of_mem hzero
    have hlength := congrArg List.length hsplit
    rw [List.length_drop, List.length_append, List.length_cons] at hlength
    have hwithin : start + front.length + 1 ≤ bytes.length := by omega
    have hfront : slice bytes start (start + front.length) = pure front := by
      rw [slice_ok (Nat.le_add_right _ _) (by omega), Nat.add_sub_cancel_left, hsplit, List.take_left]
    have hback : bytes.drop (start + front.length + 1) = back := by
      rw [Nat.add_assoc, ← List.drop_drop, hsplit, ← List.drop_drop, List.drop_left]
      rfl
    unfold readText
    simp only [hsplit, findIdx?_zero hfree, span_append_zero hfree, hfront, pure_bind, moveTo_ok hwithin]
    unfold textAt
    cases htext : textOf start front with
    | ok s =>
      rw [← hback]
      exact .ok hwithin
    | error e =>
      obtain rfl := textOf_error htext
      refine .error fun p hp => ?_
      cases hp
      exact hstart
  · rw [readText_of_no_zero hzero, List.findIdx?_eq_none_iff.mpr ?_]
    · refine .error fun p hp => ?_
      cases hp
      exact hstart
    · intro byte hbyte
      rw [decide_eq_false_iff_not]
      rintro rfl
      exact hzero hbyte

/-! ### Parts of a module -/

theorem follows_outer (mode pc : Nat) : Follows bytes (outer bytes mode pc) (Operand.read mode pc) := by
  have hone (make : Int → Operand) : Follows bytes (operand bytes .operand >>= fun v => pure (make v))
      (readOperand .operand >>= fun v => pure (make v)) :=
    (follows_operand .operand).bind fun v => follows_pure (make v)
  have htwo (make : Int → Int → Operand) :
      Follows bytes
        (operand bytes .operand >>= fun v => operand bytes .operand >>= fun w => pure (make v w))
        (readOperand .operand >>= fun v => readOperand .operand >>= fun w => pure (make v w)) :=
    (follows_operand .operand).bind fun v => (follows_operand .operand).bind fun w =>
      follows_pure (make v w)
  rcases mode with _ | _ | _ | _ | _ | _ | mode
  · exact hone .mp
  · exact hone .fp
  · exact hone .imm
  · exact follows_pure Operand.absent
  · exact htwo .mpIndirect
  · exact htwo .fpIndirect
  · exact follows_reject (e := .invalidAddressMode (mode + 6) pc) rfl

/-- **There is no fifth case.** -/
theorem follows_middle {mode : Nat} (h : mode < 4) :
    Follows bytes (middle bytes mode) (Operand.readMiddle mode) := by
  have hone (make : Int → Operand) :
      Follows bytes (operand bytes .middleOperand >>= fun v => pure (make v))
        (readOperand .middleOperand >>= fun v => pure (make v)) :=
    (follows_operand .middleOperand).bind fun v => follows_pure (make v)
  obtain rfl | rfl | rfl | rfl : mode = 0 ∨ mode = 1 ∨ mode = 2 ∨ mode = 3 := by omega
  · exact follows_pure Operand.absent
  · exact hone .imm
  · exact hone .fp
  · exact hone .mp

theorem yields_byte (part : Part) : Yields (readByte part) (· < 256) := by
  intro c byte c' h
  unfold readByte at h
  cases hrest : c.rest with
  | nil => simp only [hrest] at h; cases h
  | cons a rest =>
    simp only [hrest] at h
    cases h
    exact a.toNat_lt

theorem follows_instruction (pc : Nat) : Follows bytes (instruction bytes pc) (Instruction.read pc) := by
  refine (follows_byte .opcode).bind fun code => ?_
  cases Opcode.ofByte? (UInt8.ofNat code) with
  | none => exact follows_reject rfl
  | some opcode =>
    refine (follows_byte .addressMode).bind_yields (yields_byte _) fun address haddress => ?_
    -- the mode of the middle operand is in the top two bits of a byte
    exact (follows_middle (by omega)).bind fun mid => (follows_outer _ pc).bind fun src =>
      (follows_outer _ pc).bind fun dst => follows_pure _

theorem follows_descriptor : Follows bytes (descriptor bytes) TypeDescriptor.read :=
  (follows_operand _).bind fun _ => (follows_operand _).bind fun _ => (follows_count _).bind fun length =>
    (follows_take length _).bind fun _ => follows_pure _

/-- The position is the same for both. -/
theorem Follows.at_position {k : Nat → Scanner β} {k' : Nat → Reader β}
    (h : ∀ position, position ≤ bytes.length → Follows bytes (k position) (k' position)) :
    Follows bytes (get >>= k) (get >>= fun c => k' c.position) :=
  fun position hposition => h position hposition position hposition

theorem follows_payload (kind : DataKind) (count : Nat) (offset : Int) :
    Follows bytes (payload bytes kind count offset) (DataItem.readPayload kind count offset) := by
  cases kind with
  | bytes => exact (follows_take count _).bind fun _ => follows_pure _
  | words => exact (follows_list follows_word count).bind fun _ => follows_pure _
  | string =>
    have hbytes (start : Nat) (hstart : start ≤ bytes.length) : Follows bytes (do
        let front ← take bytes count .stringData
        return DataItem.string offset (← textAt start front)) (do
        let front ← readBytes count .stringData
        return DataItem.string offset (← textOf start front)) :=
      (follows_take count _).bind fun front => (follows_textAt hstart front).bind fun _ => follows_pure _
    exact Follows.at_position hbytes
  | reals =>
    exact (follows_list (follows_long.bind fun _ => follows_pure _) count).bind fun _ => follows_pure _
  | longs =>
    exact (follows_list (follows_long.bind fun _ => follows_pure _) count).bind fun _ => follows_pure _
  | array => exact follows_word.bind fun _ => follows_word.bind fun _ => follows_pure _
  | index => exact follows_word.bind fun _ => follows_word.bind fun _ => follows_pure _
  | pop => exact follows_pure _

theorem follows_item : Follows bytes (item? bytes) DataItem.read? := by
  refine (follows_byte .dataItem).bind fun header => ?_
  by_cases hend : header = 0
  · rw [if_pos hend, if_pos hend]
    exact follows_pure none
  rw [if_neg hend, if_neg hend]
  cases DataKind.ofCode? (header / 16) with
  | none => exact follows_reject rfl
  | some kind =>
    have htail (count : Nat) : Follows bytes (do
        let offset ← operand bytes .dataOffset
        return some (← payload bytes kind count offset)) (do
        let offset ← readOperand .dataOffset
        return some (← DataItem.readPayload kind count offset)) :=
      (follows_operand _).bind fun offset => (follows_payload kind count offset).bind fun _ =>
        follows_pure _
    by_cases hlong : header % 16 = 0
    · simp only [if_pos hlong]
      exact (follows_count _).bind htail
    · simp only [if_neg hlong, pure_bind]
      exact htail _

/-- **The loop ends.** An item takes a byte at least, so that as many rounds as there are bytes, and one
more, are enough. -/
theorem sameAnswer_items {rounds fuel position : Nat} (hposition : position ≤ bytes.length)
    (hrounds : bytes.length - position < rounds) (hfuel : bytes.length - position < fuel) :
    SameAnswer bytes (items bytes rounds position) (readItems fuel ⟨position, bytes.drop position⟩) := by
  induction rounds generalizing fuel position with
  | zero => omega
  | succ rounds ih =>
    obtain ⟨fuel, rfl⟩ := Nat.exists_eq_succ_of_ne_zero (show fuel ≠ 0 by omega)
    unfold items readItems
    refine (follows_item position hposition).bind fun item? position' within hread => ?_
    cases item? with
    | none => exact follows_pure [] position' within
    | some item =>
      -- what the item took is at least its header, so that the rounds left suffice for the bytes left
      have hspent : 1 + item.size + (bytes.drop position').length ≤ (bytes.drop position).length :=
        spends_item _ _ _ hread
      rw [List.length_drop, List.length_drop] at hspent
      refine (ih within (by omega) (by omega)).bind fun items position'' within' _ => ?_
      exact follows_pure (item :: items) position'' within'

theorem follows_data : Follows bytes (data bytes) readData := by
  intro position hposition
  refine sameAnswer_items hposition (by omega) ?_
  show _ < (bytes.drop position).length + 1
  rw [List.length_drop]
  omega

theorem follows_link : Follows bytes (link bytes) Link.read :=
  (follows_operand _).bind fun _ => (follows_operand _).bind fun _ => follows_word.bind fun _ =>
    follows_text.bind fun _ => follows_pure _

theorem follows_imported : Follows bytes (imported bytes) Import.read :=
  follows_word.bind fun _ => follows_text.bind fun _ => follows_pure _

theorem follows_importGroup : Follows bytes (importGroup bytes) readImportGroup :=
  (follows_count _).bind fun number => follows_list follows_imported number

theorem follows_exceptionCase : Follows bytes (exceptionCase bytes) ExceptionCase.read :=
  follows_text.bind fun _ => (follows_operand _).bind fun _ => follows_pure _

theorem follows_handler : Follows bytes (handler bytes) Handler.read :=
  (follows_operand _).bind fun _ => (follows_operand _).bind fun _ => (follows_operand _).bind fun _ =>
    (follows_operand _).bind fun _ => (follows_operand _).bind fun _ =>
    (follows_list follows_exceptionCase _).bind fun _ => (follows_operand _).bind fun _ => follows_pure _

/-! ### The whole -/

theorem follows_magic : Follows bytes (magic bytes) Module.readMagic := by
  refine (follows_operand _).bind fun magic => ?_
  by_cases hunsigned : magic = unsignedMagic
  · rw [if_pos hunsigned, if_pos hunsigned]
    exact follows_pure magic
  rw [if_neg hunsigned, if_neg hunsigned]
  by_cases hsigned : magic = signedMagic
  · rw [if_pos hsigned, if_pos hsigned]
    exact (follows_count _).bind fun length => (follows_take length _).bind fun _ => follows_pure magic
  · rw [if_neg hsigned, if_neg hsigned]
    exact follows_reject rfl

/-- A table that the flags announce. -/
theorem follows_table {flag : Prop} [Decidable flag] {part last : Part} {scan : Scanner α}
    {read : Reader α} (h : Follows bytes scan read) :
    Follows bytes
      (if flag then do
        let number ← count bytes part
        let entries ← list number scan
        let _ ← operand bytes last
        return entries
      else return [])
      (if flag then do
        let number ← readCount part
        let entries ← readList number read
        let _ ← readOperand last
        return entries
      else return []) := by
  by_cases hflag : flag
  · rw [if_pos hflag, if_pos hflag]
    exact (follows_count _).bind fun number => (follows_list h number).bind fun entries =>
      (follows_operand _).bind fun _ => follows_pure entries
  · rw [if_neg hflag, if_neg hflag]
    exact follows_pure []

theorem follows_sourcePath : Follows bytes (sourcePath bytes) Module.readSourcePath := by
  intro position hposition
  show SameAnswer bytes ((if position < bytes.length then text bytes else pure "") position)
    ((if bytes.drop position = [] then pure "" else readText) ⟨position, bytes.drop position⟩)
  have hend : bytes.drop position = [] ↔ ¬ position < bytes.length := by
    rw [List.drop_eq_nil_iff, Nat.not_lt]
  by_cases hleft : position < bytes.length
  · rw [if_pos hleft, if_neg (mt hend.mp (not_not_intro hleft))]
    exact follows_text position hposition
  · rw [if_neg hleft, if_pos (hend.mpr hleft)]
    exact follows_pure "" position hposition

theorem follows_whole : Follows bytes (whole bytes) Module.read :=
  follows_magic.bind fun _ => (follows_operand _).bind fun _ => (follows_operand _).bind fun _ =>
    (follows_count _).bind fun codeLength => (follows_operand _).bind fun _ =>
    (follows_count _).bind fun typeCount => (follows_count _).bind fun linkCount =>
    (follows_operand _).bind fun _ => (follows_operand _).bind fun _ =>
    (follows_listFrom follows_instruction codeLength 0).bind fun _ =>
    (follows_list follows_descriptor typeCount).bind fun _ => follows_data.bind fun _ =>
    follows_text.bind fun _ => (follows_list follows_link linkCount).bind fun _ =>
    (follows_table follows_importGroup).bind fun _ => (follows_table follows_handler).bind fun _ =>
    follows_sourcePath.bind fun _ => follows_pure _

/-- Both ways to read a file begin with all of it. -/
theorem sameAnswer_whole (bytes : Bytes) :
    SameAnswer bytes (whole bytes 0) (Module.read ⟨0, bytes⟩) :=
  follows_whole 0 (Nat.zero_le _)

end ByPosition

namespace Module

/-- **Every file is read safely.** Read by position, it gives the answer of `decode`: none of the slices
and elements that are taken is missing, the position stays within the file, there is no case that must not
be, and the loop over the data items ends. A place that an error names lies within the file. All that is in
a module came from the file, however much its counts announce: the entries of all lists together are no
more than the bytes of the file. -/
theorem decode_safe (bytes : Bytes) :
    ByPosition.decode bytes = (decode bytes).mapError .file ∧
    (∀ e, decode bytes = .error e → ∀ position ∈ e.position?, position ≤ bytes.length) ∧
    ∀ m, decode bytes = .ok m → m.Within bytes.length ∧ m.extent ≤ bytes.length := by
  obtain ⟨hanswer, hplaces⟩ := (ByPosition.sameAnswer_whole bytes).fst
  refine ⟨hanswer, hplaces, fun m hm => ?_⟩
  obtain ⟨c, hread⟩ := read_of_decode hm
  have hextent : m.extent + c.rest.length ≤ bytes.length := spends_module _ m c hread
  have hle : m.extent ≤ bytes.length := by omega
  exact ⟨within_of_extent_le hle, hle⟩

end Module
end DisBackend
