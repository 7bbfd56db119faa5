import DisBackend.Operand.Codec

/-!
# `Cli.Host` — the files around the tool

The tool works on files through four operations. `Host` names them, so that the same tool runs on the
files of the machine and on files held in memory.

## Contents

* `Host` — the operations;
* `FileTree` — files held in memory, and `FileTree.host` the operations on them.
-/

namespace DisBackend.Cli

/-- Operations on files. An operation that fails says why. -/
structure Host (m : Type → Type) where
  read : (path : String) → m (Except String Bytes)
  /-- There is something to read under the path. -/
  isFile : (path : String) → m Bool
  /-- Makes a file that is empty. -/
  create : (path : String) → m (Except String Unit)
  /-- Fills a file that was made. -/
  write : (path : String) → Bytes → m (Except String Unit)

/-! ## Files in memory -/

/-- Why an operation on files in memory fails. -/
inductive FileError where
  | missing | notADirectory | isADirectory | nameTooLong
  deriving DecidableEq, Repr

/-- The wording of a failure. -/
def FileError.message : FileError → String
  | .missing => "No such file or directory (os error 2)"
  | .notADirectory => "Not a directory (os error 20)"
  | .isADirectory => "Is a directory (os error 21)"
  | .nameTooLong => "File name too long (os error 36)"

/-- The number of bytes that a name may have. -/
def maxNameLength : Nat := 255

/-- The number of bytes that a path may have. -/
def maxPathLength : Nat := 4095

/-- Files and directories by the names on the way to them from the directory that the tool runs in, which
is `[]`. Names that are two dots stand in front and lead out of it; a slash in front is the root. -/
structure FileTree where
  files : List (List String × Bytes) := []
  directories : List (List String) := []
  deriving DecidableEq, Repr

namespace FileTree

/-- The directory above. Around the directory that the tool runs in there are others, of which no more is
known. -/
def above (here : List String) : List String :=
  if here = ["/"] then here
  else if here.all (· == "..") then here ++ [".."]
  else here.dropLast

/-- The file with given names. -/
def get? (t : FileTree) (names : List String) : Option Bytes := t.files.lookup names

/-- There is a directory with given names. -/
def isDirectory (t : FileTree) (names : List String) : Bool :=
  names == ["/"] || names.all (· == "..") || t.directories.contains names

/-- Why there is no directory with given names. -/
def obstacle (t : FileTree) (names : List String) : FileError :=
  if (t.get? names).isSome then .notADirectory else .missing

/-- The names that a path leads to from the directory `here`: empty names and single dots stay there, and
two dots lead above. A name can follow a directory only. -/
def walk (t : FileTree) (here : List String) : List String → Except FileError (List String)
  | [] => .ok here
  | name :: rest =>
    if !t.isDirectory here then .error (t.obstacle here)
    else if name = "" ∨ name = "." then t.walk here rest
    else if name = ".." then t.walk (above here) rest
    else if maxNameLength < name.utf8ByteSize then .error .nameTooLong
    else t.walk (here ++ [name]) rest

/-- The directory that a path starts from. -/
def start (path : String) : Except FileError (List String) :=
  if path = "" then .error .missing
  else if maxPathLength < path.utf8ByteSize then .error .nameTooLong
  else .ok (if path.startsWith "/" then ["/"] else [])

/-- The contents of a file. -/
def read (t : FileTree) (path : String) : Except FileError Bytes := do
  let names ← t.walk (← start path) (path.splitOn "/")
  match t.get? names with
  | some bytes => return bytes
  | none => throw (if t.isDirectory names then .isADirectory else .missing)

/-- The tree with a file of the given contents. -/
def put (t : FileTree) (names : List String) (bytes : Bytes) : FileTree :=
  { t with files := (names, bytes) :: t.files.filter (·.1 ≠ names) }

/-- The tree with a file of the given contents. A new file needs a directory. A path that ends in a slash
is that of a directory, even if there is none. -/
def write (t : FileTree) (path : String) (bytes : Bytes) : Except FileError FileTree := do
  let names := path.splitOn "/"
  let parts := (names.reverse.dropWhile (· == "")).reverse
  let here ← t.walk (← start path) parts.dropLast
  if !t.isDirectory here then throw (t.obstacle here)
  if parts.length < names.length then throw .isADirectory
  let there ← t.walk here parts.getLast?.toList
  if t.isDirectory there then throw .isADirectory else return t.put there bytes

/-- The tree with the directories on a way from the directory `here`, and the end of the way. -/
def makeWay (t : FileTree) (here : List String) : List String → FileTree × List String
  | [] => (t, here)
  | name :: rest =>
    if name = "" ∨ name = "." then t.makeWay here rest
    else if name = ".." then t.makeWay (above here) rest
    else
      let there := here ++ [name]
      FileTree.makeWay { t with directories := there :: t.directories } there rest

/-- The tree with a file of a given path, and the directories on the way to it. -/
def add (t : FileTree) (path : String) (bytes : Bytes) : FileTree :=
  let names := path.splitOn "/"
  let (t, here) := t.makeWay [] names.dropLast
  t.put (here ++ names.getLast?.toList) bytes

/-- The tree of files with given paths. -/
def ofFiles (files : List (String × Bytes)) : FileTree :=
  files.foldl (fun t (path, bytes) => t.add path bytes) {}

/-- A change of the tree as an operation. -/
def change (act : FileTree → Except FileError FileTree) : StateM FileTree (Except String Unit) :=
  fun t =>
    match act t with
    | .ok t => (.ok (), t)
    | .error e => (.error e.message, t)

/-- The operations on files in memory. -/
def host : Host (StateM FileTree) where
  read path := fun t => ((t.read path).mapError FileError.message, t)
  isFile path := fun t => ((t.read path).isOk, t)
  create path := change (·.write path [])
  write path bytes := change (·.write path bytes)

end FileTree
end DisBackend.Cli
