import DisBackend.Event
import DisBackend.Module.Reader
import DisBackend.Module.Writer
import DisBackend.Storage

/-!
# `Reporting` — work that leaves a log

## Contents

* `Reporting`, `emit`, `liftResult` — computations that report events and can fail; what was reported
  before a failure stays reported;
* `writeModule`, `readModule` — module files written and read with a report of success;
* `reserveWord` — a word of module data handed out with a report of its use.
-/

namespace DisBackend

/-- A computation that reports events and can fail. -/
abbrev Reporting (ε : Type) := EStateM ε Log

/-- Reports an event. -/
def emit {ε : Type} (e : Event) : Reporting ε Unit := modify fun log => log.push e

/-- The result of a computation that reports nothing. -/
def liftResult {ε α : Type} : Except ε α → Reporting ε α
  | .ok a => pure a
  | .error e => throw e

/-- The file of a module. -/
def writeModule (m : Module) : Reporting Fault Bytes := do
  let bytes ← liftResult m.encode
  emit (.encoded m.name bytes.length)
  return bytes

/-- The module in a file. -/
def readModule (bytes : Bytes) : Reporting ReadError Module := do
  let m ← liftResult (Module.decode bytes)
  emit (.decoded m.name m.code.length)
  return m

/-- Hands out the next word of module data, for what `tag` says. -/
def reserveWord (d : ModuleData) (tag : String) (pointer : Bool) :
    Reporting Fault (Int × ModuleData) := do
  let (offset, d) ← liftResult (d.allocate tag pointer)
  emit (.dataPlaced offset tag pointer)
  return (offset, d)

end DisBackend
