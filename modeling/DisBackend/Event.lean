import DisBackend.Linking.Patch
import DisBackend.Text.Numeral

/-!
# `Event` — what is reported along the way

Compilation reports what it does as a sequence of events, each with a level of detail.

## Contents

* `Level` — the levels, and which of them a threshold shows;
* `Event`, `Event.level`, `Event.text` — the events and their wording;
* `Event.origin` — the component named beside an event in the tool's diagnostics.
-/

namespace DisBackend

/-- A level of detail. -/
inductive Level where
  | warn | debug | trace
  deriving DecidableEq, Repr, Inhabited

namespace Level

/-- The name of a level. -/
def name : Level → String
  | .warn => "WARN"
  | .debug => "DEBUG"
  | .trace => "TRACE"

/-- The amount of detail of a level. -/
def rank : Level → Nat
  | .warn => 0
  | .debug => 1
  | .trace => 2

/-- Events of level `level` are shown when events up to `threshold` are asked for. -/
def shows (threshold level : Level) : Bool := level.rank ≤ threshold.rank

end Level

/-- Something that happened. -/
inductive Event where
  | duplicateFunction (name : String)
  | duplicateGlobal (name : String)
  | loggerReady
  | lowering (function : String)
  | dataFinished (size : Int) (items imports : Nat)
  | assembled (name : String) (instructions types : Nat) (dataSize : Int) (imports handlers : Nat)
  | encoded (name : String) (bytes : Nat)
  | decoded (name : String) (instructions : Nat)
  | symbol (name : String) (frameId address : Int)
  | dataPlaced (offset : Int) (tag : String) (pointer : Bool)
  | lowered (function : String) (instructions : Nat) (frameSize : Int) (callSites : Nat)
  | functionPlaced (name : String) (frameId address : Int)
  | patching (kind : PatchKind) (instruction : Instruction) (function callee : String)
  deriving DecidableEq, Repr

namespace Event

/-- The level of an event. -/
def level : Event → Level
  | .duplicateFunction _ | .duplicateGlobal _ => .warn
  | .loggerReady | .lowering _ | .dataFinished .. | .assembled .. | .encoded .. | .decoded ..
  | .symbol .. => .debug
  | .dataPlaced .. | .lowered .. | .functionPlaced .. | .patching .. => .trace

/-- The wording of an event. -/
def text : Event → String
  | .duplicateFunction name =>
    s!"Function `{name}` is defined more than once, only the first definition is compiled"
  | .duplicateGlobal name => s!"Global `{name}` is declared more than once"
  | .loggerReady => "Logger is set up at level DEBUG"
  | .lowering function => s!"Lowering `{function}`"
  | .dataFinished size items imports =>
    s!"Module data is {size} bytes with {items} items and {imports} imports"
  | .assembled name instructions types dataSize imports handlers =>
    s!"Assembled `{name}`: {instructions} instructions, {types} type descriptors, "
      ++ s!"{dataSize} bytes of module data, {imports} imports, {handlers} handlers"
  | .encoded name bytes => s!"Encoded module `{name}` into {bytes} bytes"
  | .decoded name instructions => s!"Decoded module `{name}` with {instructions} instructions"
  | .symbol name frameId address =>
    Text.padLeft 6 ' ' (toString address) ++ "  frame " ++ Text.padRight 3 ' ' (toString frameId)
      ++ " " ++ name
  | .dataPlaced offset tag pointer =>
    s!"Module data @{offset} is `{tag}`" ++ (if pointer then " (pointer)" else "")
  | .lowered function instructions frameSize callSites =>
    s!"Lowered `{function}` into {instructions} instructions with a frame of {frameSize} bytes "
      ++ s!"and {callSites} call sites"
  | .functionPlaced name frameId address =>
    s!"Function `{name}` has frame {frameId} and starts at {address}"
  | .patching kind instruction function callee =>
    s!"Patching {kind.name} of `{instruction.text}` in `{function}` for `{callee}`"

/-- The component that diagnostics name for an event. -/
def origin : Event → String
  | .duplicateFunction _ | .duplicateGlobal _ | .lowering _ => "compiler/src/compiler.rs"
  | .loggerReady => "driver/src/logger.rs"
  | .dataFinished .. => "compiler/src/context.rs"
  | .assembled .. | .functionPlaced .. | .patching .. => "compiler/src/assembler.rs"
  | .encoded .. => "dis/src/encode.rs"
  | .decoded .. => "dis/src/decode.rs"
  | .symbol .. => "driver/src/main.rs"
  | .dataPlaced .. => "compiler/src/module_data.rs"
  | .lowered .. => "compiler/src/lowering/lowerer.rs"

/-- An event after its level. -/
def line (e : Event) : String := e.level.name ++ " " ++ e.text

end Event

/-- Events in the order in which they happened. -/
abbrev Log := Array Event

/-- The lines of the events up to a threshold. -/
def Log.lines (log : Log) (threshold : Level) : List String :=
  (log.toList.filter fun e => threshold.shows e.level).map Event.line

end DisBackend
