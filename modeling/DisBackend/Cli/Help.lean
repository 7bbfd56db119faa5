import DisBackend.Cli.Arguments
import DisBackend.Text.Numeral

/-!
# `Cli.Help` — what the tool says about itself

A help text tells what a command does, how it is called, and what may be given to it. The last comes in
lists, with all labels of a list in one column and the remarks on them in another.

## Contents

* `Entry`, `listText` — lists in two columns;
* `Topic.text` — the help texts.
-/

namespace DisBackend.Cli

/-- A line of a list: a label, and a remark on it. -/
structure Entry where
  label : String
  remark : String := ""
  deriving DecidableEq, Repr

/-- A list under a heading. The remarks start two blanks after the longest label. -/
def listText (heading : String) (entries : List Entry) : String :=
  let width := (entries.map (·.label.length)).foldl max 0
  let line (e : Entry) : String := "  " ++ Text.padRight width ' ' e.label ++ "  " ++ e.remark
  heading ++ ":\n" ++ "\n".intercalate (entries.map line)

/-- What a command does. -/
def CommandName.summary : CommandName → String
  | .build => "Compiles a program in JSON form into a Dis module"
  | .dump => "Prints the disassembly of a Dis module"

/-- What the command `help` does. -/
def helpSummary : String := "Print this message or the help of the given subcommand(s)"

/-- The options that may stand before and after a command. -/
def globalOptions : List Entry :=
  [⟨"-v, --verbose", ""⟩,
    ⟨"    --config <CONFIG>", "Configuration file to use instead of the `disc.toml` next to the input"⟩]

/-- The option that asks for a help text. -/
def helpOption : Entry := ⟨"-h, --help", "Print help"⟩

/-- The list of commands. -/
def commandList : String :=
  listText "Commands" [⟨"build", CommandName.summary .build⟩, ⟨"dump", CommandName.summary .dump⟩,
    ⟨"help", helpSummary⟩]

/-- The parts of a help text, with an empty line between any two. -/
def paragraphs (parts : List String) : String := "\n\n".intercalate parts ++ "\n"

/-- The text on a topic. -/
def Topic.text : Topic → String
  | .tool =>
    paragraphs ["Usage: disc [OPTIONS] <COMMAND>", commandList,
      listText "Options" (globalOptions ++ [helpOption, ⟨"-V, --version", "Print version"⟩])]
  | .command .build =>
    paragraphs [CommandName.summary .build, "Usage: disc build [OPTIONS] <PROGRAM>",
      listText "Arguments" [⟨"<PROGRAM>", ""⟩],
      listText "Options" (⟨"-o, --output <OUTPUT>", ""⟩ :: globalOptions ++ [helpOption])]
  | .command .dump =>
    paragraphs [CommandName.summary .dump, "Usage: disc dump [OPTIONS] <MODULE>",
      listText "Arguments" [⟨"<MODULE>", ""⟩], listText "Options" (globalOptions ++ [helpOption])]
  | .help =>
    paragraphs [helpSummary, "Usage: disc help [COMMAND]...",
      listText "Arguments" [⟨"[COMMAND]...", "Print help for the subcommand(s)"⟩]]

end DisBackend.Cli
