/-!
# `Cli.Arguments` — what the tool is asked to do

The arguments are options, the name of a command, and then the options and the input of that command.
The options `--verbose` and `--config` may stand before or after the command; if a configuration file
is named in both places, the one after the command counts. No option is given twice in one place. A value
that is an argument of its own is looked at only when the next option or the end of its place comes; a
question for help after it is answered before.

## Contents

* `Command`, `Arguments`, `Topic`, `Request` — what is asked for;
* `Scan`, `Scan.step` — one argument after the other;
* `parse?` — all arguments.
-/

namespace DisBackend.Cli

/-- What is to be done. -/
inductive Command where
  | build (program : String) (output : Option String)
  | dump (module : String)
  deriving DecidableEq, Repr

/-- The file that a command reads. -/
def Command.input : Command → String
  | .build program _ => program
  | .dump module => module

/-- What the tool is told. -/
structure Arguments where
  command : Command
  verbose : Bool
  config : Option String
  deriving DecidableEq, Repr

/-- The commands by name. -/
inductive CommandName where
  | build | dump
  deriving DecidableEq, Repr

/-- The command with a given name. -/
def CommandName.ofString? : String → Option CommandName
  | "build" => some .build
  | "dump" => some .dump
  | _ => none

/-- What a help text is about. -/
inductive Topic where
  /-- The tool as a whole. -/
  | tool
  | command (name : CommandName)
  /-- The command `help`. -/
  | help
  deriving DecidableEq, Repr

/-- What the tool is asked for. -/
inductive Request where
  | perform (arguments : Arguments)
  | version
  | help (topic : Topic)
  deriving DecidableEq, Repr

/-- An option that has a value. -/
inductive OptionName where
  | config | output
  deriving DecidableEq, Repr

/-- What was given so far in one place: before the command if there is none, and after it otherwise. -/
structure Scan where
  command : Option CommandName
  verbose : Bool := false
  config : Option String := none
  output : Option String := none
  input : Option String := none
  /-- An option whose value is the next argument. -/
  pending : Option OptionName := none
  /-- An option with a value that has not been looked at. -/
  held : Option (OptionName × String) := none
  /-- Two dashes have ended the options. -/
  closed : Bool := false

/-- What an argument leads to. -/
inductive Progress where
  | next (scan : Scan)
  | version
  | help
  | refused

/-- The next state, if there is one. -/
def Progress.ofScan? : Option Scan → Progress
  | some s => .next s
  | none => .refused

namespace Scan

/-- Options of the command `build` may be given. -/
def takesOutput (s : Scan) : Bool := s.command == some .build

/-- Gives an option its value, which must not be empty. -/
def give? (s : Scan) (option : OptionName) (value : String) : Option Scan :=
  if value = "" then none
  else
    match option with
    | .config => if s.config.isSome then none else some { s with config := some value }
    | .output => if s.output.isSome then none else some { s with output := some value }

/-- Looks at the value that is held. -/
def settle? (s : Scan) : Option Scan :=
  match s.held with
  | some (option, value) => { s with held := none }.give? option value
  | none => some s

/-- Waits for the value of an option. -/
def await (s : Scan) (option : OptionName) : Progress := .next { s with pending := some option }

/-- Turns on reports. -/
def beVerbose (s : Scan) : Progress := if s.verbose then .refused else .next { s with verbose := true }

/-- An argument that is no option: the input of a command. -/
def positional (s : Scan) (value : String) : Progress :=
  if s.command.isNone ∨ s.input.isSome ∨ value = "" then .refused
  else .next { s with input := some value }

/-- An option with a long name, perhaps with a value after an equals sign. -/
def long (s : Scan) (name : String) (value : Option String) : Progress :=
  match name, value with
  | "verbose", none => s.beVerbose
  | "help", none => .help
  | "version", none => if s.command.isNone then .version else .refused
  | "config", none => s.await .config
  | "config", some value => .ofScan? (s.give? .config value)
  | "output", none => if s.takesOutput then s.await .output else .refused
  | "output", some value => if s.takesOutput then .ofScan? (s.give? .output value) else .refused
  | _, _ => .refused

/-- The value that directly follows the letter of an option. -/
def attached : List Char → String
  | '=' :: rest => String.ofList rest
  | text => String.ofList text

/-- Options with letters, one after the other. The value of one may follow its letter. -/
def letters (s : Scan) : List Char → Progress
  | [] => .next s
  | 'v' :: rest =>
    match s.beVerbose with
    | .next s => s.letters rest
    | progress => progress
  | 'h' :: _ => .help
  | 'V' :: _ => if s.command.isNone then .version else .refused
  | 'o' :: rest =>
    if !s.takesOutput then .refused
    else if rest.isEmpty then s.await .output
    else .ofScan? (s.give? .output (attached rest))
  | _ => .refused

/-- A long option: its name, and its value after an equals sign. -/
def splitLong (text : List Char) : String × Option String :=
  let name := String.ofList (text.takeWhile (· ≠ '='))
  match text.dropWhile (· ≠ '=') with
  | [] => (name, none)
  | _ :: value => (name, some (String.ofList value))

/-- What one option leads to. Before it, a value that is held is looked at. -/
def option (s : Scan) (act : Scan → Progress) : Progress :=
  match s.pending, s.settle? with
  | none, some s => act s
  | _, _ => .refused

/-- What one argument leads to. -/
def step (s : Scan) (argument : String) : Progress :=
  if s.closed then s.positional argument
  else
    match argument.toList with
    | ['-', '-'] => if s.pending.isSome then .refused else .next { s with closed := true }
    | '-' :: '-' :: text =>
      let (name, value) := splitLong text
      s.option (·.long name value)
    | '-' :: c :: rest => s.option (·.letters (c :: rest))
    | _ =>
      match s.pending with
      | some option => .next { s with pending := none, held := some (option, argument) }
      | none => s.positional argument

end Scan

/-- The command with its input and options. -/
def commandOf? (name : CommandName) (s : Scan) : Option Command :=
  match name, s.input with
  | .build, some program => some (.build program s.output)
  | .dump, some module => some (.dump module)
  | _, none => none

/-- The arguments after the command; `before` is what came before it. -/
def parseCommand (before : Scan) (name : CommandName) (s : Scan) : List String → Option Request
  | [] =>
    match s.pending, s.settle?, before.settle? with
    | none, some s, some before =>
      (commandOf? name s).map fun command =>
        .perform ⟨command, before.verbose || s.verbose, s.config.or before.config⟩
    | _, _, _ => none
  | argument :: rest =>
    match s.step argument with
    | .next s => parseCommand before name s rest
    | .version => some .version
    | .help => some (.help (.command name))
    | .refused => none

/-- The arguments after the command `help`: the name of a command, or nothing. -/
def parseHelp : List String → Option Request
  | [] => some (.help .tool)
  | ["help"] => some (.help .help)
  | [name] => (CommandName.ofString? name).map fun name => .help (.command name)
  | _ => none

/-- The arguments from a place before the command on. -/
def parseFrom (s : Scan) : List String → Option Request
  | [] => none
  | argument :: rest =>
    if s.pending.isNone ∧ !s.closed ∧ argument = "help" then parseHelp rest
    else
      match CommandName.ofString? argument, s.pending, s.closed with
      | some name, none, false => parseCommand s name { command := some name } rest
      | _, _, _ =>
        match s.step argument with
        | .next s => parseFrom s rest
        | .version => some .version
        | .help => some (.help .tool)
        | .refused => none

/-- What the arguments ask for; nothing if they make no sense. -/
def parse? (arguments : List String) : Option Request := parseFrom { command := none } arguments

end DisBackend.Cli
