/-!
# `Path` — names of files

A path is a sequence of names divided by slashes. Repeated slashes, a slash at the end and single dots
other than at the start count for nothing. The file name is the last name, unless the path ends in the
root, in a single dot at its start or in two dots.

## Contents

* `file?`, `fileStem?` — the last name of a path, with and without its extension;
* `parent`, `sibling`, `withExtension` — other paths made from a path.
-/

namespace DisBackend.Path

/-- A path, backwards, without the slashes and single dots at its end that count for nothing. -/
def trimEnd : (backwards : List Char) → List Char
  | '/' :: rest => trimEnd rest
  | '.' :: '/' :: rest => trimEnd rest
  | backwards => backwards

/-- A path cut before its last name: what comes before it, backwards, and the name. -/
def split (path : String) : List Char × List Char :=
  let backwards := trimEnd path.toList.reverse
  (backwards.dropWhile (· ≠ '/'), (backwards.takeWhile (· ≠ '/')).reverse)

/-- The text before the file name, and the file name. -/
def file? (path : String) : Option (List Char × List Char) :=
  match split path with
  | (_, []) | (_, ['.']) | (_, ['.', '.']) => none
  | (front, name) => some (front.reverse, name)

/-- A file name up to its last dot. A name whose only dot comes first has no extension. -/
def stem (name : List Char) : List Char :=
  match (name.reverse.dropWhile (· ≠ '.')).drop 1 with
  | [] => name
  | front => front.reverse

/-- The last name of a path, without its extension. -/
def fileStem? (path : String) : Option String :=
  (file? path).map fun (_, name) => String.ofList (stem name)

/-- A path with another extension. A path without a file name stays as it is. The old extension goes
first, up to its dot; when that leaves two dots at the end, as of `..x`, they are no file name any more
and nothing is added. -/
def withExtension (path extension : String) : String :=
  match file? path with
  | none => path
  | some (front, name) =>
    if stem name = ['.'] ∧ path.toList = front ++ name then String.ofList (front ++ ['.', '.'])
    else String.ofList (front ++ stem name) ++ "." ++ extension

/-- The path of the directory that the last name of a path is in. -/
def parent (path : String) : String :=
  match split path with
  | (_, []) => ""
  | (front, _) =>
    match trimEnd front with
    | [] => if path.toList.head? = some '/' then "/" else ""
    | front => String.ofList front.reverse

/-- The path of another file in the same directory. -/
def sibling (path name : String) : String :=
  let directory := parent path
  if directory = "" then name
  else if directory = "/" then directory ++ name
  else directory ++ "/" ++ name

end DisBackend.Path
