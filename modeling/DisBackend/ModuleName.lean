import DisBackend.Path
import DisBackend.Text.Uppercase

/-!
# `ModuleName` — what a module is called unless it is told

## Contents

* `moduleName` — the name that a source path gives.
-/

namespace DisBackend

/-- The name of a module whose source path gives none. -/
def fallbackModuleName : String := "Main"

/-- The file name of the source path without its extension, its first letter in upper case. -/
def moduleName (sourcePath : String) : String :=
  match ((Path.fileStem? sourcePath).getD "").toList with
  | [] => fallbackModuleName
  | first :: rest => String.ofList (Text.toUpper first ++ rest)

end DisBackend
