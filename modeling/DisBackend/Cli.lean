import DisBackend.Cli.Config
import DisBackend.Cli.Help
import DisBackend.Cli.Host
import DisBackend.Compile
import DisBackend.Module.Listing
import DisBackend.Path
import DisBackend.Ssa.Json

/-!
# `Cli` — the command line tool

The tool compiles a program into a module file, or prints the listing of a module file.

## Contents

* `Report` — what the tool leaves behind besides files;
* `Failure`, `Failure.text` — why it gives up, with the causes;
* `loadConfig`, `buildModule`, `dumpModule`, `perform`;
* `run` — the whole.
-/

namespace DisBackend.Cli

/-- What a run of the tool leaves behind besides files. -/
structure Report where
  /-- The exit code. -/
  code : Nat
  output : String := ""
  diagnostics : String := ""
  deriving DecidableEq, Repr

/-- Why the tool gives up: what it could not do, and the causes. -/
structure Failure where
  message : String
  causes : List String := []
  deriving DecidableEq, Repr

/-- A text is part of another. -/
def isWithin (part : List Char) : List Char → Bool
  | [] => part.isEmpty
  | c :: rest => part.isPrefixOf (c :: rest) || isWithin part rest

/-- The lines that tell of a failure. A cause that the message names already is left out. -/
def Failure.text (f : Failure) : String :=
  let causes := f.causes.filter fun cause => !isWithin cause.toList f.message.toList
  s!"error: {f.message}\n" ++ String.join (causes.map fun cause => s!"  caused by: {cause}\n")

/-- Why the tool stops. -/
inductive Halt where
  | failure (f : Failure)
  | fault (f : Fault)
  deriving DecidableEq, Repr

/-- The line that tells of an event. -/
def eventLine (e : Event) : String := s!"[{e.level.name}] {e.origin}: {e.text}\n"

/-- The lines of the events up to a threshold. -/
def logText (threshold : Level) (log : Log) : String :=
  String.join ((log.toList.filter fun e => threshold.shows e.level).map eventLine)

section

variable {m : Type → Type} [Monad m]

/-- Work on files that reports events and can stop. -/
abbrev ToolM (m : Type → Type) := ExceptT Halt (StateT Log m)

/-- An operation on files; if it fails, `message` says what could not be done. -/
def attempt {α : Type} (message : String) (operation : m (Except String α)) : ToolM m α := do
  match ← (operation : m (Except String α)) with
  | .ok a => return a
  | .error cause => throw (.failure ⟨message, [cause]⟩)

/-- A computation of the library. -/
def reporting {ε α : Type} (halt : ε → Halt) (act : Reporting ε α) : ToolM m α := do
  match act (← get) with
  | .ok a log => set log; return a
  | .error e log => set log; throw (halt e)

/-- The text of a file. -/
def readText (host : Host m) (message path : String) : ToolM m String := do
  let bytes ← attempt message (host.read path)
  match String.fromUTF8? ⟨bytes.toArray⟩ with
  | some text => return text
  | none => throw (.failure ⟨message, ["stream did not contain valid UTF-8"]⟩)

/-- The settings in a configuration file. -/
def readConfig (host : Host m) (path : String) : ToolM m Config := do
  let text ← readText host s!"failed to read configuration {path}" path
  match Config.parse? text with
  | some config => return config
  | none => throw (.failure ⟨s!"invalid configuration {path}", ["TOML parse error"]⟩)

/-- The settings: those of the file that is named, or else those of the file beside the input, if there
is one. -/
def loadConfig (host : Host m) (arguments : Arguments) : ToolM m Config := do
  match arguments.config with
  | some path => readConfig host path
  | none =>
    let path := Path.sibling arguments.command.input configFileName
    if ← (host.isFile path : m Bool) then readConfig host path else return {}

/-- Why a compilation stops the tool. -/
def haltOf : CompileStop → Halt
  | .error e =>
    .failure ⟨e.message, match e with
      | .missingEntry _ => []
      | .lowering _ cause => [cause.message]⟩
  | .fault f => .fault f

/-- Where a module goes that is not told. -/
def defaultOutput (input : String) : String := Path.withExtension input "dis"

/-- Compiles a program into a module file; the result is what to print. -/
def buildModule (host : Host m) (config : Config) (input : String) (output : Option String) :
    ToolM m String := do
  let text ← readText host s!"failed to read {input}" input
  match Ssa.Program.parse? text with
  | none => throw (.failure ⟨s!"{input} is not a valid program", ["invalid JSON"]⟩)
  | some program =>
    let program := { program with entry := config.entry.getD program.entry }
    let options : CompileOptions := { name := config.name, stackSize := config.stackSize }
    let compiled ← reporting haltOf (compile options program)
    for s in compiled.symbols do
      reporting Halt.fault (emit (.symbol s.name s.frameId s.address))
    let output := output.getD (defaultOutput input)
    attempt s!"failed to create {output}" (host.create output)
    let bytes ← reporting Halt.fault (writeModule compiled.module)
    attempt s!"failed to write {output}" (host.write output bytes)
    let instructions := compiled.module.code.length
    let functions := compiled.symbols.length
    return s!"compiled {input} -> {output} ({instructions} instructions, {functions} functions)\n"

/-- Reads a module file; the result is its listing. -/
def dumpModule (host : Host m) (path : String) : ToolM m String := do
  let bytes ← attempt s!"failed to read {path}" (host.read path)
  let invalid (e : ReadError) : Halt :=
    .failure ⟨s!"{path} is not a valid Dis module", [e.message]⟩
  return (← reporting invalid (readModule bytes)).listing

/-- Does what the arguments ask for, with the given settings. -/
def performWith (host : Host m) (config : Config) (command : Command) : ToolM m String :=
  match command with
  | .build program output => buildModule host config program output
  | .dump module => dumpModule host module

/-- The report of work that is done. -/
def reportOf (threshold : Level) (result : Except Halt String) (log : Log) : Report :=
  let lines := logText threshold log
  match result with
  | .ok output => { code := 0, output, diagnostics := lines }
  | .error (.failure f) => { code := 1, diagnostics := lines ++ f.text }
  | .error (.fault f) => { code := 101, diagnostics := lines ++ s!"abandoned: {f.message}\n" }

/-- Does what the arguments ask for. -/
def perform (host : Host m) (arguments : Arguments) : m Report := do
  match ← ((loadConfig host arguments).run.run #[] : m (Except Halt Config × Log)) with
  | (.error halt, log) => return reportOf .warn (.error halt) log
  | (.ok config, log) =>
    let threshold : Level := if arguments.verbose || config.debug then .debug else .warn
    let (result, log) ← (performWith host config arguments.command).run.run (log.push .loggerReady)
    return reportOf threshold result log

/-- What `--version` prints. -/
def versionText : String := "dis-driver 0.0.3\n"

/-- Runs the tool. -/
def run (host : Host m) (arguments : List String) : m Report :=
  match parse? arguments with
  | none => return { code := 2, diagnostics := Topic.tool.text }
  | some .version => return { code := 0, output := versionText }
  | some (.help topic) => return { code := 0, output := topic.text }
  | some (.perform arguments) => perform host arguments

end
end DisBackend.Cli
