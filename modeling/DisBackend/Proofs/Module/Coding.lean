import Mathlib.Data.List.TakeDrop
import Mathlib.Data.List.TakeWhile
import DisBackend.Proofs.Module.Bytes
import DisBackend.Proofs.Outcome

/-!
# `Proofs.Module.Coding` — chunks and the readers that undo them

A module file is written as a list of chunks and read by a sequence of readers. `Coded` says that a chunk
can be written and that a reader finds in its bytes what was written; it is put together along the chunks
of the writer and the steps of the reader. `Yields` says what every answer of a reader is like.

## Contents

* `Reads`, `Coded` and their laws for sequences and lists;
* `coded_operand`, `coded_count`, `coded_bytes`, `coded_word`, `coded_text`, … — the simple chunks;
* `Yields`, its laws, and what the simple readers yield.
-/

namespace DisBackend

variable {α β : Type}

/-! ## Reading back -/

/-- If `bytes` is followed by something of the kind `before`, `r` reads `a` and takes just `bytes`. -/
def Reads (before : Bytes → Prop) (r : Reader α) (bytes : Bytes) (a : α) : Prop :=
  ∀ position rest, before rest →
    r ⟨position, bytes ++ rest⟩ = .ok (a, ⟨position + bytes.length, rest⟩)

/-- The chunk can be written, and `r` reads `a` from what was written. -/
def Coded (before : Bytes → Prop) (chunk : Chunk) (r : Reader α) (a : α) : Prop :=
  ∃ bytes, chunk = .ok bytes ∧ Reads before r bytes a

/-- Whatever follows. -/
def Anything : Bytes → Prop := fun _ => True

section Laws

variable {before : Bytes → Prop} {r : Reader α} {k : α → Reader β} {a : α} {b : β}

theorem Reads.bind {xs ys : Bytes} (h : Reads Anything r xs a) (h' : Reads before (k a) ys b) :
    Reads before (r >>= k) (xs ++ ys) b := by
  intro position rest hrest
  have hfirst := h position (ys ++ rest) trivial
  have hsecond := h' (position + xs.length) rest hrest
  rw [List.append_assoc, List.length_append, ← Nat.add_assoc]
  show (r _ >>= fun p => k p.1 p.2) = _
  rw [hfirst]
  exact hsecond

theorem reads_pure (a : α) : Reads before (pure a : Reader α) [] a := by
  intro position rest _
  rfl

/-- What is read is used in some way. -/
theorem Reads.map {xs : Bytes} (h : Reads before r xs a) (f : α → β) :
    Reads before (r >>= fun a => pure (f a)) xs (f a) := by
  intro position rest hrest
  show (r _ >>= fun p => pure (f p.1, p.2)) = _
  rw [h position rest hrest]
  rfl

theorem joinChunks_cons_ok {chunk : Chunk} {rest : List Chunk} {xs ys : Bytes} (h : chunk = .ok xs)
    (h' : joinChunks rest = .ok ys) : joinChunks (chunk :: rest) = .ok (xs ++ ys) := by
  rw [joinChunks, h, h']
  rfl

/-- Chunks one after the other, where the reader ends. -/
theorem coded_nil (a : α) : Coded before (joinChunks []) (pure a : Reader α) a :=
  ⟨[], rfl, reads_pure a⟩

/-- **A chunk before others.** -/
theorem Coded.cons {chunk : Chunk} {rest : List Chunk} (h : Coded Anything chunk r a)
    (h' : Coded before (joinChunks rest) (k a) b) :
    Coded before (joinChunks (chunk :: rest)) (r >>= k) b := by
  obtain ⟨xs, hxs, hreads⟩ := h
  obtain ⟨ys, hys, hreads'⟩ := h'
  exact ⟨xs ++ ys, joinChunks_cons_ok hxs hys, hreads.bind hreads'⟩

theorem joinChunks_append {xs ys : List Chunk} :
    joinChunks (xs ++ ys) = (do return (← joinChunks xs) ++ (← joinChunks ys)) := by
  induction xs with
  | nil =>
    cases h : joinChunks ys <;> simp [joinChunks, h, bind, Except.bind, Pure.pure, Except.pure]
  | cons chunk xs ih =>
    rw [List.cons_append, joinChunks, ih, joinChunks]
    cases chunk <;> cases joinChunks xs <;> cases joinChunks ys <;>
      simp [bind, Except.bind, Pure.pure, Except.pure]

/-- **A part of several chunks before others.** -/
theorem Coded.append {xs ys : List Chunk} (h : Coded Anything (joinChunks xs) r a)
    (h' : Coded before (joinChunks ys) (k a) b) :
    Coded before (joinChunks (xs ++ ys)) (r >>= k) b := by
  obtain ⟨front, hfront, hreads⟩ := h
  obtain ⟨back, hback, hreads'⟩ := h'
  refine ⟨front ++ back, ?_, hreads.bind hreads'⟩
  rw [joinChunks_append, hfront, hback]
  rfl

/-- What is read is used in some way. -/
theorem Coded.map {chunk : Chunk} (h : Coded before chunk r a) (f : α → β) :
    Coded before chunk (r >>= fun a => pure (f a)) (f a) := by
  obtain ⟨bytes, hbytes, hreads⟩ := h
  exact ⟨bytes, hbytes, hreads.map f⟩

/-- Chunks that were put together are the chunks themselves. -/
theorem joinChunks_cons_joinChunks (xs ys : List Chunk) :
    joinChunks (joinChunks xs :: ys) = joinChunks (xs ++ ys) := by
  rw [joinChunks_append]
  rfl

/-- What was written holds every chunk. -/
theorem exists_chunk_of_joinChunks {chunks : List Chunk} {bytes : Bytes}
    (h : joinChunks chunks = .ok bytes) : ∀ chunk ∈ chunks, ∃ part, chunk = .ok part := by
  induction chunks generalizing bytes with
  | nil => simp
  | cons chunk chunks ih =>
    simp only [joinChunks, except_bind_ok_iff] at h
    obtain ⟨front, hfront, back, hback, -⟩ := h
    exact List.forall_mem_cons.mpr ⟨⟨front, hfront⟩, ih hback⟩

end Laws

/-- **A list is read element by element.** -/
theorem coded_listFrom {read : Nat → Reader α} {encode : α → Chunk} {xs : List α}
    (h : ∀ x ∈ xs, ∀ index, Coded Anything (encode x) (read index) x) (index : Nat) :
    Coded Anything (joinChunks (xs.map encode)) (readListFrom read xs.length index) xs := by
  induction xs generalizing index with
  | nil => exact coded_nil []
  | cons x xs ih =>
    have hrest := ih (fun y hy => h y (List.mem_cons_of_mem _ hy)) (index + 1)
    obtain ⟨bytes, hbytes, hreads⟩ := hrest
    refine (h x List.mem_cons_self index).cons ⟨bytes, hbytes, ?_⟩
    exact hreads.map (x :: ·)

theorem coded_list {read : Reader α} {encode : α → Chunk} {xs : List α}
    (h : ∀ x ∈ xs, Coded Anything (encode x) read x) :
    Coded Anything (joinChunks (xs.map encode)) (readList xs.length read) xs :=
  coded_listFrom (fun x hx _ => h x hx) 0

/-! ## Simple chunks -/

theorem coded_operand {v : Int} (h : Encodable v) (part : Part) :
    Coded Anything (encodeOperand v) (readOperand part) v := by
  obtain ⟨bytes, hbytes⟩ := encodeOperand_ok_iff.mpr h
  refine ⟨bytes, hbytes, fun position rest _ => ?_⟩
  unfold readOperand
  simp only [decodeOperand_encodeOperand hbytes, List.drop_left]

/-- A length that fits is kept as it is. -/
theorem toInt32_of_le {n : Nat} (h : (n : Int) ≤ operandMax) : toInt32 n = n := by
  unfold toInt32
  unfold operandMax at h
  apply Int.bmod_eq_of_le <;> omega

theorem coded_count {n : Nat} (h : (n : Int) ≤ operandMax) (part : Part) :
    Coded Anything (countChunk n) (readCount part) n := by
  have hfits : Encodable (n : Int) := by
    unfold Encodable operandMin
    omega
  obtain ⟨bytes, hbytes, hreads⟩ := coded_operand hfits part
  refine ⟨bytes, by rw [countChunk, toInt32_of_le h]; exact hbytes, ?_⟩
  have hcount : Reads Anything (if 0 ≤ (n : Int) then pure (n : Int).toNat
      else throw (.negativeCount part n) : Reader Nat) [] n := by
    rw [if_pos (by omega)]
    exact reads_pure n
  have hboth := hreads.bind (k := fun count : Int => (if 0 ≤ count then pure count.toNat
    else throw (.negativeCount part count) : Reader Nat)) hcount
  rw [List.append_nil] at hboth
  exact hboth

theorem splitFront?_append (xs ys : List α) : splitFront? xs.length (xs ++ ys) = some (xs, ys) := by
  induction xs with
  | nil => rfl
  | cons x xs ih => simp [splitFront?, ih]

theorem coded_bytes (bytes : Bytes) (part : Part) :
    Coded Anything (.ok bytes) (readBytes bytes.length part) bytes := by
  refine ⟨bytes, rfl, fun position rest _ => ?_⟩
  unfold readBytes
  simp only [splitFront?_append]

theorem coded_byte (byte : UInt8) (part : Part) :
    Coded Anything (.ok [byte]) (readByte part) byte.toNat :=
  ⟨[byte], rfl, fun _ _ _ => rfl⟩

theorem reads_word (w : UInt32) : Reads Anything readWord (wordBytesOf w) w := by
  obtain ⟨bytes, hbytes, hreads⟩ := coded_bytes (wordBytesOf w) .word
  cases hbytes
  have hword : Reads Anything readWord _ _ := hreads.map fun bytes => UInt32.ofNat (numberOf bytes)
  rw [ofNat_numberOf_wordBytesOf] at hword
  exact hword

theorem reads_long (w : UInt64) : Reads Anything readLong (longBytesOf w) w := by
  have hhalf (high : UInt32) : Reads Anything (do
      let low ← readWord
      return UInt64.ofNat (high.toNat * 4294967296 + low.toNat)) _ _ :=
    (reads_word (UInt32.ofNat (w.toNat % 4294967296))).map fun low =>
      UInt64.ofNat (high.toNat * 4294967296 + low.toNat)
  have hboth : Reads Anything readLong _ _ :=
    (reads_word (UInt32.ofNat (w.toNat / 4294967296))).bind (hhalf _)
  have hvalue : UInt64.ofNat ((UInt32.ofNat (w.toNat / 4294967296)).toNat * 4294967296 +
      (UInt32.ofNat (w.toNat % 4294967296)).toNat) = w := by
    have hlt := w.toNat_lt
    have hhigh : (UInt32.ofNat (w.toNat / 4294967296)).toNat = w.toNat / 4294967296 := by
      rw [UInt32.toNat_ofNat']; omega
    have hlow : (UInt32.ofNat (w.toNat % 4294967296)).toNat = w.toNat % 4294967296 := by
      rw [UInt32.toNat_ofNat']; omega
    have hsum : w.toNat / 4294967296 * 4294967296 + w.toNat % 4294967296 = w.toNat := by omega
    rw [hhigh, hlow, hsum, UInt64.ofNat_toNat]
  rw [hvalue, ← longBytesOf_eq] at hboth
  exact hboth

theorem span_append_zero {bytes : Bytes} (h : (0 : UInt8) ∉ bytes) (rest : Bytes) :
    (bytes ++ 0 :: rest).span (· ≠ 0) = (bytes, 0 :: rest) := by
  rw [List.span_eq_takeWhile_dropWhile]
  have hall : ∀ byte ∈ bytes, decide (byte ≠ 0) = true := by
    intro byte hbyte
    rw [decide_eq_true_iff]
    rintro rfl
    exact h hbyte
  rw [List.takeWhile_append_of_pos hall, List.dropWhile_append_of_pos hall]
  simp

theorem coded_text {s : String} (h : NulFree s) : Coded Anything (textChunk s) readText s := by
  refine ⟨textBytes s ++ [0], rfl, fun position rest _ => ?_⟩
  unfold readText
  rw [List.append_assoc, List.singleton_append]
  simp only [span_append_zero (nulFree_iff.mp h), textOf_ok_iff.mpr rfl]
  simp [bind, Except.bind, pure, Except.pure, Nat.add_assoc]

/-! ## What readers yield -/

/-- Every answer of `r` satisfies `Q`. -/
def Yields (r : Reader α) (Q : α → Prop) : Prop := ∀ c a c', r c = .ok (a, c') → Q a

section Yields

variable {r : Reader α} {k : α → Reader β} {Q Q' : α → Prop} {S : β → Prop}

theorem reader_bind_ok {c c'' : Cursor} {b : β} (h : (r >>= k) c = .ok (b, c'')) :
    ∃ a c', r c = .ok (a, c') ∧ k a c' = .ok (b, c'') := by
  change (r c >>= fun p => k p.1 p.2) = _ at h
  cases hr : r c with
  | error e => rw [hr] at h; cases h
  | ok p => rw [hr] at h; exact ⟨p.1, p.2, rfl, h⟩

theorem reader_bind_of_ok {c c' : Cursor} {a : α} (h : r c = .ok (a, c')) : (r >>= k) c = k a c' := by
  show (r c >>= fun p => k p.1 p.2) = _
  rw [h]
  rfl

theorem reader_bind_of_error {c : Cursor} {e : ReadError} (h : r c = .error e) :
    (r >>= k) c = .error e := by
  show (r c >>= fun p => k p.1 p.2) = _
  rw [h]
  rfl

theorem Yields.bind (h : Yields r Q) (h' : ∀ a, Q a → Yields (k a) S) : Yields (r >>= k) S := by
  intro c b c'' hb
  obtain ⟨a, c', ha, hk⟩ := reader_bind_ok hb
  exact h' a (h c a c' ha) c' b c'' hk

/-- Nothing has to be known of what is read first. -/
theorem Yields.after (h : ∀ a, Yields (k a) S) : Yields (r >>= k) S := by
  intro c b c'' hb
  obtain ⟨a, c', -, hk⟩ := reader_bind_ok hb
  exact h a c' b c'' hk

theorem yields_pure {a : α} (h : Q a) : Yields (pure a : Reader α) Q := by
  intro c b c' hb
  cases hb
  exact h

theorem yields_throw (e : ReadError) : Yields (throw e : Reader α) Q := by
  intro c a c' h
  cases h

theorem yields_operand (part : Part) : Yields (readOperand part) Encodable := by
  intro c v c' h
  unfold readOperand at h
  cases hdecode : decodeOperand c.rest with
  | none => simp only [hdecode] at h; cases h
  | some p =>
    simp only [hdecode] at h
    cases h
    exact encodable_of_decodeOperand hdecode

theorem yields_count (part : Part) : Yields (readCount part) fun n => (n : Int) ≤ operandMax := by
  refine (yields_operand part).bind fun count hcount => ?_
  by_cases hpos : 0 ≤ count
  · rw [if_pos hpos]
    apply yields_pure
    have hle := hcount.2
    omega
  · rw [if_neg hpos]
    exact yields_throw _

theorem length_of_splitFront? {n : Nat} {xs front back : List α}
    (h : splitFront? n xs = some (front, back)) : front.length = n := by
  induction n generalizing xs front with
  | zero => cases h; rfl
  | succ n ih =>
    cases xs with
    | nil => cases h
    | cons x xs =>
      simp only [splitFront?, Option.map_eq_some_iff] at h
      obtain ⟨⟨front', back'⟩, hsplit, he⟩ := h
      cases he
      rw [List.length_cons, ih hsplit]

theorem yields_bytes (n : Nat) (part : Part) : Yields (readBytes n part) fun bytes => bytes.length = n := by
  intro c bytes c' h
  unfold readBytes at h
  cases hsplit : splitFront? n c.rest with
  | none => simp only [hsplit] at h; cases h
  | some p =>
    simp only [hsplit] at h
    cases h
    exact length_of_splitFront? hsplit

/-- What was read as a text stands there, up to the first zero byte. -/
theorem readText_ok {c c' : Cursor} {s : String} (h : readText c = .ok (s, c')) :
    NulFree s ∧ c.rest = textBytes s ++ 0 :: c'.rest ∧
      c'.position = c.position + (textBytes s).length + 1 := by
  unfold readText at h
  rw [List.span_eq_takeWhile_dropWhile] at h
  have hsplit := List.takeWhile_append_dropWhile (p := fun byte : UInt8 => decide (byte ≠ 0)) (l := c.rest)
  cases hback : c.rest.dropWhile (· ≠ 0) with
  | nil => simp only [hback] at h; cases h
  | cons byte back =>
    simp only [hback] at h
    cases htext : textOf c.position (c.rest.takeWhile (· ≠ 0)) with
    | error e => rw [htext] at h; cases h
    | ok s' =>
      rw [htext] at h
      cases h
      have hfront := textOf_ok_iff.mp htext
      -- the first byte that was dropped is the zero byte
      have hbyte : byte = 0 := by
        have hnot := List.head?_dropWhile_not (fun byte : UInt8 => decide (byte ≠ 0)) c.rest
        rw [hback] at hnot
        simpa using hnot
      rw [hback, hfront, hbyte] at hsplit
      refine ⟨?_, hsplit.symm, by rw [hfront]⟩
      rw [nulFree_iff, ← hfront]
      intro hzero
      have hne := List.all_eq_true.mp List.all_takeWhile 0 hzero
      simp at hne

/-- A text without its end is no text. -/
theorem readText_of_no_zero {position : Nat} {bytes : Bytes} (h : (0 : UInt8) ∉ bytes) :
    readText ⟨position, bytes⟩ = .error (.unterminatedString position) := by
  have hall : bytes.dropWhile (· ≠ 0) = [] := by
    rw [List.dropWhile_eq_nil_iff]
    intro byte hbyte
    rw [decide_eq_true_iff]
    rintro rfl
    exact h hbyte
  unfold readText
  rw [List.span_eq_takeWhile_dropWhile]
  simp only [hall]
  rfl

theorem yields_text : Yields readText NulFree :=
  fun _ _ _ h => (readText_ok h).1

theorem yields_listFrom {read : Nat → Reader α} (h : ∀ index, Yields (read index) Q)
    (count index : Nat) :
    Yields (readListFrom read count index) fun xs => xs.length = count ∧ ∀ x ∈ xs, Q x := by
  induction count generalizing index with
  | zero => exact yields_pure ⟨rfl, by simp⟩
  | succ count ih =>
    refine (h index).bind fun x hx => (ih (index + 1)).bind fun xs hxs => ?_
    exact yields_pure ⟨by rw [List.length_cons, hxs.1], List.forall_mem_cons.mpr ⟨hx, hxs.2⟩⟩

theorem yields_list {read : Reader α} (h : Yields read Q) (count : Nat) :
    Yields (readList count read) fun xs => xs.length = count ∧ ∀ x ∈ xs, Q x :=
  yields_listFrom (fun _ => h) count 0

end Yields
end DisBackend
