/-!
# `Handler` — what happens when an exception is raised

A handler covers a range of code. An exception raised there goes to the address listed for its name,
or to the wildcard address, or on to the next handler out.

## Contents

* `ExceptionCase`, `Handler`, `Handler.catchAll`;
* `Handler.packedLabels` — number of cases and nesting depth in one number;
* `Handler.text` — the listing form.
-/

namespace DisBackend

/-- Where a handler sends the exceptions of one name. -/
structure ExceptionCase where
  name : String
  pc : Int
  deriving DecidableEq, Repr, Inhabited

/-- An exception handler. -/
structure Handler where
  /-- The frame offset at which the exception is stored. -/
  exceptionOffset : Int
  /-- The first address covered. -/
  pc1 : Int
  /-- The address after the last one covered. -/
  pc2 : Int
  /-- The descriptor of the exception's data, or -1 if only its name is of interest. -/
  typeId : Int
  /-- The nesting depth. -/
  scope : Int
  /-- The exceptions caught by name. -/
  cases : List ExceptionCase
  /-- Where all other exceptions go, or -1 if they go on. -/
  wildcardPc : Int
  deriving DecidableEq, Repr, Inhabited

namespace Handler

/-- A handler that sends every exception to one address. -/
def catchAll (exceptionOffset pc1 pc2 wildcardPc : Int) : Handler :=
  ⟨exceptionOffset, pc1, pc2, -1, 0, [], wildcardPc⟩

/-- The number of cases in the low half of a 32-bit number and the scope in the high half. -/
def packedLabels (h : Handler) : Int :=
  (BitVec.ofNat 32 h.cases.length ||| BitVec.ofInt 32 h.scope <<< 16).toInt

/-- The listing form of a handler, one line for each case. -/
def text (h : Handler) : String :=
  s!"handler {h.pc1}..{h.pc2}, exception {h.exceptionOffset}(fp), desc {h.typeId}"
    ++ (if h.scope = 0 then "" else s!", scope {h.scope}")
    ++ String.join (h.cases.map fun c => s!"\n    \"{c.name}\" -> {c.pc}")
    ++ (if 0 ≤ h.wildcardPc then s!"\n    * -> {h.wildcardPc}" else "")

end Handler
end DisBackend
