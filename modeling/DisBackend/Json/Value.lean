import DisBackend.Double

/-!
# `Json.Value` — JSON values

The fields of an object keep their order, and a name may occur more than once: what a repeated name
means is for the reader of the object to say. A number is an integer if it is written without fraction
and exponent and fits 64 bits, and a real otherwise.

Text may be well formed and still stand for nothing. Such a value can be passed over, but not read.

## Contents

* `Value`, `Value.sound`, and the views `Value.asString?`, `Value.asNat?`, `Value.asInt64?`,
  `Value.asDouble?`, `Value.asBool?`, `Value.asList?`;
* `Record`, `Value.asRecord?` — a value with named fields;
* `Record.required`, `Record.optional` — reading a field.
-/

namespace DisBackend.Json

/-- A JSON value. -/
inductive Value where
  | null
  | bool (b : Bool)
  | int (n : Int)
  | real (d : Double)
  | string (s : String)
  | array (elements : List Value)
  | object (fields : List (String × Value))
  /-- A number beyond all doubles, or a string or an object with half of a surrogate pair in a text. -/
  | void
  deriving Inhabited, Repr

namespace Value

mutual

/-- Everything in the value stands for something, and it nests at most `depth` deep. -/
def sound (depth : Nat) : Value → Bool
  | .void => false
  | .array elements => 0 < depth && soundElements (depth - 1) elements
  | .object fields => 0 < depth && soundFields (depth - 1) fields
  | _ => true

/-- All elements of an array are sound. -/
def soundElements (depth : Nat) : List Value → Bool
  | [] => true
  | v :: rest => v.sound depth && soundElements depth rest

/-- All fields of an object are sound. -/
def soundFields (depth : Nat) : List (String × Value) → Bool
  | [] => true
  | (_, v) :: rest => v.sound depth && soundFields depth rest

end

/-- The value as a text. -/
def asString? : Value → Option String
  | .string s => some s
  | _ => none

/-- The value as an unsigned 64-bit number. -/
def asNat? : Value → Option Nat
  | .int n => if 0 ≤ n ∧ n < 18446744073709551616 then some n.toNat else none
  | _ => none

/-- The value as a signed 64-bit number. -/
def asInt64? : Value → Option Int64
  | .int n =>
    if -9223372036854775808 ≤ n ∧ n < 9223372036854775808 then some (Int64.ofInt n) else none
  | _ => none

/-- The value as a real; an integer is rounded to the nearest one. -/
def asDouble? : Value → Option Double
  | .real d => some d
  | .int n => some (if n < 0 then (Double.ofRatio n.natAbs 1).negate else Double.ofRatio n.natAbs 1)
  | _ => none

/-- The value as a truth value. -/
def asBool? : Value → Option Bool
  | .bool b => some b
  | _ => none

/-- The value as a list whose elements are all read by `read`. -/
def asList? {α : Type} (read : Value → Option α) : Value → Option (List α)
  | .array elements => elements.mapM read
  | _ => none

/-- The value as an optional one: `null` stands for none. -/
def asOption? {α : Type} (read : Value → Option α) : Value → Option (Option α)
  | .null => some none
  | v => (read v).map some

end Value

/-- The fields found in a value, by name. -/
abbrev Record := List (String × Value)

/-- The value as a record with the given field names. An object may hold other fields too, but none of
the given ones twice. An array holds the fields in order, and may stop early. -/
def Value.asRecord? (names : List String) : Value → Option Record
  | .object fields =>
    let known := fields.filter (names.contains ·.1)
    if (known.map Prod.fst).Nodup then some known else none
  | .array elements => if elements.length ≤ names.length then some (names.zip elements) else none
  | _ => none

/-- A field that must be there. -/
def Record.required {α : Type} (r : Record) (name : String) (read : Value → Option α) : Option α :=
  (r.lookup name).bind read

/-- A field that has a default value. -/
def Record.optional {α : Type} (r : Record) (name : String) (default : α) (read : Value → Option α) :
    Option α :=
  match r.lookup name with
  | none => some default
  | some v => read v

end DisBackend.Json
