import DisBackend.Module
import DisBackend.Toml.Reader

/-!
# `Cli.Config` — the settings of a configuration file

The settings stand in two tables, `log` and `module`. A table may also be given as an array of its
values, in the order of the settings; a date or a time in its place sets nothing. What is not set has a
default, and what is not known is ignored.

## Contents

* `Config`, `Config.parse?`.
-/

namespace DisBackend.Cli

/-- The settings. -/
structure Config where
  /-- Report what happens in detail. -/
  debug : Bool := false
  /-- The name of the module, instead of the one that the source path gives. -/
  name : Option String := none
  stackSize : Int := defaultStackSize
  /-- The entry function, instead of the one that the program names. -/
  entry : Option String := none
  deriving DecidableEq, Repr

/-- The name of a configuration file that is found without being named. -/
def configFileName : String := "disc.toml"

namespace Config

open Toml (Entries Value)

/-- A table with the given settings. -/
def settings? (names : List String) : Value → Option Entries
  | .table _ entries => some entries
  | .array elements => some (names.zip elements)
  | .tables elements => some (names.zip (elements.map (.table .header)))
  | .moment _ => some []
  | _ => none

/-- One of the tables of a file; it may be missing. -/
def section? (file : Entries) (name : String) (names : List String) : Option Entries :=
  match file.lookup name with
  | some v => settings? names v
  | none => some []

/-- A setting. If it is there, it must be of the right kind. -/
def setting? {α : Type} (entries : Entries) (name : String) (default : α) (read : Value → Option α) :
    Option α :=
  match entries.lookup name with
  | some v => read v
  | none => some default

/-- A value as a truth value. -/
def boolean? : Value → Option Bool
  | .boolean b => some b
  | _ => none

/-- A value as a text. -/
def text? : Value → Option (Option String)
  | .string s => some (some s)
  | _ => none

/-- A value as a 32-bit number. -/
def number? : Value → Option Int
  | .integer n => if FitsInt32 n then some n else none
  | _ => none

/-- The settings in a file. -/
def parse? (text : String) : Option Config := do
  let file ← Toml.parse? text
  let log ← section? file "log" ["debug"]
  let module ← section? file "module" ["name", "stack-size", "entry"]
  return { debug := ← setting? log "debug" false boolean?
           name := ← setting? module "name" none text?
           stackSize := ← setting? module "stack-size" defaultStackSize number?
           entry := ← setting? module "entry" none text? }

end Config
end DisBackend.Cli
