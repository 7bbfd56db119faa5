import DisBackend.Cli

/-!
# `Main` — the tool on the files of the machine

## Contents

* `ioMessage` — the wording of a failed operation;
* `fileHost` — the operations on the machine's files;
* `main`.
-/

namespace DisBackend.Cli

/-- The failure with a given number of the system, which comes with either sign. -/
def FileError.ofCode? (code : UInt32) : Option FileError :=
  match (min code (0 - code)).toNat with
  | 2 => some .missing
  | 20 => some .notADirectory
  | 21 => some .isADirectory
  | 36 => some .nameTooLong
  | _ => none

/-- The wording of a failed operation. -/
def ioMessage (e : IO.Error) : String :=
  match e with
  | .noFileOrDirectory _ code _ | .inappropriateType _ code _ | .invalidArgument _ code _ =>
    ((FileError.ofCode? code).map FileError.message).getD (toString e)
  | e => toString e

/-- An operation whose failure is a result. -/
def guarded {α : Type} (act : IO α) : IO (Except String α) := do
  try
    return .ok (← act)
  catch e => return .error (ioMessage e)

/-- The contents of a file. -/
def readBytes (path : String) : IO Bytes := do
  return (← IO.FS.readBinFile path).toList

/-- Makes a file of the given contents. -/
def writeBytes (path : String) (bytes : Bytes) : IO Unit :=
  IO.FS.writeBinFile path ⟨bytes.toArray⟩

/-- The operations on the machine's files. -/
def fileHost : Host IO where
  read path := guarded (readBytes path)
  isFile path := do return (← guarded (readBytes path)).isOk
  create path := guarded (writeBytes path [])
  write path bytes := guarded (writeBytes path bytes)

end DisBackend.Cli

/-- Runs the tool and leaves with its exit code. -/
def main (arguments : List String) : IO UInt32 := do
  let report ← DisBackend.Cli.run DisBackend.Cli.fileHost arguments
  IO.print report.output
  IO.eprint report.diagnostics
  return UInt32.ofNat report.code
