/-!
# `Toml.Value` — the tables of a configuration file

A configuration file describes a table by headers and by assignments with dotted names. No table is
described twice: how a table came about decides what may still be added to it.

## Contents

* `Origin`, `Value`, `Entries`;
* `Entries.descend` — the table at the end of a path;
* `Entries.assign`, `Entries.openTable`, `Entries.openElement` — what a line of a file does.
-/

namespace DisBackend.Toml

/-- How a table came about. -/
inductive Origin where
  /-- It was written between braces, and is complete. -/
  | inline
  /-- It has a header of its own. -/
  | header
  /-- It was named on the way to another table's header. -/
  | passed
  /-- It was named in a dotted name. -/
  | dotted
  deriving DecidableEq, Repr

/-- A value of a configuration file. -/
inductive Value where
  | string (s : String)
  | integer (n : Int)
  | boolean (b : Bool)
  /-- A real number, as it is written. -/
  | real (text : String)
  /-- A date, a time or both, as it is written. -/
  | moment (text : String)
  | array (elements : List Value)
  | table (origin : Origin) (entries : List (String × Value))
  /-- An array of tables, each with a header of its own. -/
  | tables (elements : List (List (String × Value)))
  deriving Repr

/-- Names and their values, in the order in which they were found. -/
abbrev Entries := List (String × Value)

namespace Entries

/-- The entries with another value for a name that they have. -/
def replace (entries : Entries) (name : String) (v : Value) : Entries :=
  entries.map fun (n, old) => if n = name then (n, v) else (n, old)

/-- Changes the table at the end of a path, creating the tables on the way that are missing. `dots` tells
a dotted name from the path of a header: only the latter may go through tables with a header. -/
def descend (dots : Bool) (act : Origin → Entries → Option Entries) (origin : Origin)
    (entries : Entries) : (path : List String) → Option Entries
  | [] => act origin entries
  | name :: path =>
    match entries.lookup name with
    | none =>
      let origin := if dots then .dotted else .passed
      (descend dots act origin [] path).map fun inner => entries ++ [(name, .table origin inner)]
    | some (.table origin inner) =>
      if origin = .inline ∨ (dots ∧ origin = .header) then none
      else (descend dots act origin inner path).map fun inner =>
        entries.replace name (.table origin inner)
    | some (.tables elements) =>
      match elements.reverse with
      | [] => none
      | last :: front => (descend dots act .header last path).map fun last =>
        entries.replace name (.tables (last :: front).reverse)
    | some _ => none

/-- Adds a name that must be new. -/
def insertNew (entries : Entries) (name : String) (v : Value) : Option Entries :=
  match entries.lookup name with
  | some _ => none
  | none => some (entries ++ [(name, v)])

/-- What an assignment of a dotted name does: `path` is the name up to its last part. Dots lead into
tables that dots have made, and into no others. -/
def assign (entries : Entries) (path : List String) (name : String) (v : Value) : Option Entries :=
  descend true (fun origin inner =>
    if path = [] ∨ origin = .dotted then insertNew inner name v else none) .header entries path

/-- What the header of a table does. -/
def openTable (entries : Entries) (path : List String) (name : String) : Option Entries :=
  descend false (fun _ inner =>
    match inner.lookup name with
    | none => some (inner ++ [(name, .table .header [])])
    | some (.table .passed old) => some (inner.replace name (.table .header old))
    | some _ => none) .header entries path

/-- What the header of an element of an array of tables does. -/
def openElement (entries : Entries) (path : List String) (name : String) : Option Entries :=
  descend false (fun _ inner =>
    match inner.lookup name with
    | none => some (inner ++ [(name, .tables [[]])])
    | some (.tables elements) => some (inner.replace name (.tables (elements ++ [[]])))
    | some _ => none) .header entries path

end Entries
end DisBackend.Toml
