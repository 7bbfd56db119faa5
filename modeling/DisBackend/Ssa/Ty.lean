/-!
# `Ssa.Ty` — the types of values

Every value takes one word. Strings and objects are references that the garbage collector follows.

## Contents

* `Ty`, `Ty.name`, `Ty.ofName?`, `Ty.isPointer`.
-/

namespace DisBackend.Ssa

/-- The type of a value. -/
inductive Ty where
  | int | real | bool | string | object
  deriving DecidableEq, Repr, Inhabited

namespace Ty

/-- The name of a type. -/
def name : Ty → String
  | .int => "int" | .real => "real" | .bool => "bool" | .string => "string" | .object => "object"

/-- Every type. -/
def all : List Ty := [.int, .real, .bool, .string, .object]

/-- Values of the type are references. -/
def isPointer : Ty → Bool
  | .string | .object => true
  | _ => false

end Ty
end DisBackend.Ssa
