import DisBackend.Toml.Scalar

/-!
# `Toml.Reader` — the text of a configuration file

A file is a sequence of lines: blank ones, comments, headers of tables and assignments. Strings in three
quotes and arrays may go over several lines.

## Contents

* `skipSpace`, `skipComment?`, `skipLines`, `endLine?` — what stands between the values;
* `readBasic`, `readLiteral`, `readText` — strings;
* `readKey` — dotted names;
* `readValue` — values;
* `parse?` — a whole file.
-/

namespace DisBackend.Toml

/-! ## Blanks and comments -/

/-- The character may stand in a comment and in a string. -/
def isPlain (c : Char) : Bool := c == '\t' || (0x20 ≤ c.toNat && c.toNat != 0x7f)

/-- The text after blanks. -/
def skipSpace (text : List Char) : List Char := text.dropWhile fun c => c == ' ' || c == '\t'

/-- The text after the end of a line. -/
def newline? : List Char → Option (List Char)
  | '\n' :: rest => some rest
  | '\r' :: '\n' :: rest => some rest
  | _ => none

/-- The text after a comment, if there is one: it goes up to the end of the line. -/
def skipComment : List Char → List Char
  | '#' :: rest => rest.dropWhile isPlain
  | text => text

/-- The text after blanks, comments and ends of lines, as far as the fuel goes. -/
def skipLines : (fuel : Nat) → List Char → List Char
  | 0, text => text
  | fuel + 1, text =>
    let text := skipComment (skipSpace text)
    match newline? text with
    | some rest => skipLines fuel rest
    | none => text

/-- The text after the rest of a line, on which only blanks and a comment may stand. -/
def endLine? (text : List Char) : Option (List Char) :=
  match skipComment (skipSpace text) with
  | [] => some []
  | text => newline? text

/-! ## Strings -/

/-- The character with a given number, which must not be half of a surrogate pair. -/
def scalarChar? (n : Nat) : Option Char :=
  if n < 0xd800 ∨ (0xe000 ≤ n ∧ n < 0x110000) then some (Char.ofNat n) else none

/-- The character that a backslash and the text after it stand for, and the text after that. -/
def readEscape? : List Char → Option (Char × List Char)
  | 'b' :: rest => some ('\x08', rest)
  | 't' :: rest => some ('\t', rest)
  | 'n' :: rest => some ('\n', rest)
  | 'f' :: rest => some ('\x0c', rest)
  | 'r' :: rest => some ('\r', rest)
  | '"' :: rest => some ('"', rest)
  | '\\' :: rest => some ('\\', rest)
  | 'u' :: a :: b :: c :: d :: rest => do
    return (← scalarChar? (← Json.hex4? a b c d), rest)
  | 'U' :: a :: b :: c :: d :: e :: f :: g :: h :: rest => do
    return (← scalarChar? (65536 * (← Json.hex4? a b c d) + (← Json.hex4? e f g h)), rest)
  | _ => none

/-- A string on one line, up to the closing quote. What was read so far is given in reverse order. -/
def readBasic : (fuel : Nat) → (done : List Char) → List Char → Option (String × List Char)
  | 0, _, _ => none
  | fuel + 1, done, text =>
    match text with
    | '"' :: rest => some (String.ofList done.reverse, rest)
    | '\\' :: rest =>
      match readEscape? rest with
      | some (c, rest) => readBasic fuel (c :: done) rest
      | none => none
    | c :: rest => if isPlain c then readBasic fuel (c :: done) rest else none
    | [] => none

/-- A string without escapes on one line, up to the closing quote. -/
def readLiteral (text : List Char) : Option (String × List Char) :=
  let inner := text.takeWhile (· != '\'')
  match text.dropWhile (· != '\'') with
  | _ :: rest => if inner.all isPlain then some (String.ofList inner, rest) else none
  | [] => none

/-- The text after blanks and ends of lines, as far as the fuel goes. -/
def skipFold : (fuel : Nat) → List Char → List Char
  | 0, text => text
  | fuel + 1, text =>
    match newline? (skipSpace text) with
    | some rest => skipFold fuel rest
    | none => skipSpace text

/-- The text after a backslash at the end of a line: blanks and ends of lines count for nothing. -/
def foldedLine? (fuel : Nat) (text : List Char) : Option (List Char) :=
  (newline? (skipSpace text)).map (skipFold fuel)

/-- A string in three quotes, up to the closing ones; up to two quotes before those belong to the string.
With `escapes` a backslash has a meaning. -/
def readLong (quote : Char) (escapes : Bool) :
    (fuel : Nat) → (done : List Char) → List Char → Option (String × List Char)
  | 0, _, _ => none
  | fuel + 1, done, text =>
    match text with
    | [] => none
    | c :: rest =>
      if c = quote then
        let quotes := (text.takeWhile (· == quote)).length
        if quotes < 3 then readLong quote escapes fuel (quote :: done) rest
        else if 5 < quotes then none
        else
          let kept := List.replicate (quotes - 3) quote ++ done
          some (String.ofList kept.reverse, text.drop quotes)
      else if escapes ∧ c = '\\' then
        match foldedLine? fuel rest with
        | some rest => readLong quote escapes fuel done rest
        | none =>
          match readEscape? rest with
          | some (c, rest) => readLong quote escapes fuel (c :: done) rest
          | none => none
      else
        match newline? text with
        | some rest => readLong quote escapes fuel ('\n' :: done) rest
        | none => if isPlain c then readLong quote escapes fuel (c :: done) rest else none

/-- The text after the end of a line that directly follows opening quotes. -/
def skipFirstLine (text : List Char) : List Char := (newline? text).getD text

/-- A string at the start of the text, with its quotes. -/
def readText : List Char → Option (String × List Char)
  | '"' :: '"' :: '"' :: rest => readLong '"' true (rest.length + 1) [] (skipFirstLine rest)
  | '\'' :: '\'' :: '\'' :: rest => readLong '\'' false (rest.length + 1) [] (skipFirstLine rest)
  | '"' :: rest => readBasic (rest.length + 1) [] rest
  | '\'' :: rest => readLiteral rest
  | _ => none

/-! ## Names -/

/-- The character may stand in a name without quotes. -/
def isBare (c : Char) : Bool := c.isAlphanum || c == '_' || c == '-'

/-- One part of a name. -/
def readPart : List Char → Option (String × List Char)
  | '"' :: rest => readBasic (rest.length + 1) [] rest
  | '\'' :: rest => readLiteral rest
  | text =>
    match text.takeWhile isBare with
    | [] => none
    | name => some (String.ofList name, text.dropWhile isBare)

/-- The depth to which values may be nested, and the number of parts that a name may have. -/
def maxDepth : Nat := 79

/-- A name of at most `length` parts: the parts before the last, and the last. Blanks may stand around the
dots. -/
def readParts : (length : Nat) → List Char → Option ((List String × String) × List Char)
  | 0, _ => none
  | length + 1, text =>
    match readPart (skipSpace text) with
    | none => none
    | some (part, rest) =>
      match skipSpace rest with
      | '.' :: rest => do
        let ((path, name), rest) ← readParts length rest
        return ((part :: path, name), rest)
      | rest => some (([], part), rest)

/-- A name. -/
def readKey (text : List Char) : Option ((List String × String) × List Char) :=
  readParts maxDepth text

/-! ## Values -/

/-- The character may stand in a word. -/
def isWordChar (c : Char) : Bool := c.isAlphanum || c == '+' || c == '-' || c == '_' || c == '.' || c == ':'

/-- A word at the start of the text. A time may follow a date after one blank. -/
def takeWord (text : List Char) : List Char × List Char :=
  let word := text.takeWhile isWordChar
  match text.dropWhile isWordChar with
  | ' ' :: c :: rest =>
    if isDate word ∧ c.isDigit then
      (word ++ ' ' :: (c :: rest).takeWhile isWordChar, (c :: rest).dropWhile isWordChar)
    else (word, ' ' :: c :: rest)
  | rest => (word, rest)

mutual

/-- The value at the start of the text, and the text after it. `depth` is the number of levels that may
still be opened. -/
def readValue (fuel depth : Nat) (text : List Char) : Option (Value × List Char) :=
  match fuel with
  | 0 => none
  | fuel + 1 =>
    match text with
    | '"' :: _ | '\'' :: _ => (readText text).map fun (s, rest) => (.string s, rest)
    | '[' :: rest =>
      if depth = 0 then none
      else (readElements fuel (depth - 1) [] rest).map fun (vs, rest) => (.array vs, rest)
    | '{' :: rest =>
      if depth = 0 then none
      else
        match skipSpace rest with
        | '}' :: rest => some (.table .inline [], rest)
        | rest => (readPairs fuel (depth - 1) [] rest).map fun (es, rest) => (.table .inline es, rest)
    | _ =>
      let (word, rest) := takeWord text
      (scalar? word).map fun v => (v, rest)

/-- The elements of an array up to the closing bracket; a comma may follow the last one. -/
def readElements (fuel depth : Nat) (done : List Value) (text : List Char) :
    Option (List Value × List Char) :=
  match fuel with
  | 0 => none
  | fuel + 1 =>
    match skipLines (text.length + 1) text with
    | ']' :: rest => some (done.reverse, rest)
    | text =>
      match readValue fuel depth text with
      | none => none
      | some (v, rest) =>
        match skipLines (rest.length + 1) rest with
        | ',' :: rest => readElements fuel depth (v :: done) rest
        | ']' :: rest => some ((v :: done).reverse, rest)
        | _ => none

/-- The entries of a table in braces, all on one line. -/
def readPairs (fuel depth : Nat) (done : Entries) (text : List Char) :
    Option (Entries × List Char) :=
  match fuel with
  | 0 => none
  | fuel + 1 =>
    match readKey text with
    | some ((path, name), '=' :: rest) =>
      match readValue fuel depth (skipSpace rest) with
      | none => none
      | some (v, rest) =>
        match done.assign path name v, skipSpace rest with
        | some done, ',' :: rest => readPairs fuel depth done rest
        | some done, '}' :: rest => some (done, rest)
        | _, _ => none
    | _ => none

end

/-! ## Files -/

/-- A file that is being read: the table described so far, and the path of the table that assignments
go to. -/
structure Document where
  root : Entries := []
  current : List String := []

/-- A header: the table that the lines after it describe. -/
def readHeader (d : Document) (text : List Char) : Option (Document × List Char) := do
  let element := text.head? == some '['
  let ((path, name), rest) ← readKey (if element then text.drop 1 else text)
  let root ← if element then d.root.openElement path name else d.root.openTable path name
  let rest ← match element, rest with
    | true, ']' :: ']' :: rest => some rest
    | false, ']' :: rest => some rest
    | _, _ => none
  return (⟨root, path ++ [name]⟩, rest)

/-- Changes the table that assignments go to. -/
def Document.update (d : Document) (act : Entries → Option Entries) : Option Document :=
  (Entries.descend false (fun _ inner => act inner) .header d.root d.current).map fun root =>
    { d with root }

/-- An assignment. -/
def readAssignment (d : Document) (text : List Char) : Option (Document × List Char) := do
  let ((path, name), rest) ← readKey text
  match rest with
  | '=' :: rest =>
    let (v, rest) ← readValue (2 * rest.length + 1) maxDepth (skipSpace rest)
    return (← d.update fun inner => inner.assign path name v, rest)
  | _ => none

/-- The lines of a file, one after the other. -/
def readLines : (fuel : Nat) → Document → List Char → Option Document
  | 0, _, _ => none
  | fuel + 1, d, text =>
    match skipLines (text.length + 1) text with
    | [] => some d
    | '[' :: rest => do
      let (d, rest) ← readHeader d rest
      readLines fuel d (← endLine? rest)
    | text => do
      let (d, rest) ← readAssignment d text
      readLines fuel d (← endLine? rest)

/-- The table that a file describes. A byte order mark at its start counts for nothing. -/
def parse? (text : String) : Option Entries :=
  let chars := match text.toList with
    | '\ufeff' :: rest => rest
    | chars => chars
  (readLines (chars.length + 1) {} chars).map Document.root

end DisBackend.Toml
