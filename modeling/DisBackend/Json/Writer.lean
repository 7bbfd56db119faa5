import DisBackend.Double.Layout
import DisBackend.Json.Value
import DisBackend.Text.Numeral

/-!
# `Json.Writer` — values to JSON text

The text is compact: no white space. In strings only the quote, the backslash and control characters
are escaped. What has no JSON form, such as a real that is not finite, is written as `null`.

## Contents

* `quoteString`, `Value.render`.
-/

namespace DisBackend.Json

/-- How a character stands in a JSON string. -/
def escapeChar (c : Char) : String :=
  if c = '"' then "\\\""
  else if c = '\\' then "\\\\"
  else if c = '\x08' then "\\b"
  else if c = '\x0c' then "\\f"
  else if c = '\n' then "\\n"
  else if c = '\r' then "\\r"
  else if c = '\t' then "\\t"
  else if c.toNat < 0x20 then "\\u" ++ Text.padLeft 4 '0' (Text.hexDigits c.toNat)
  else c.toString

/-- A JSON string. -/
def quoteString (s : String) : String := "\"" ++ String.join (s.toList.map escapeChar) ++ "\""

/-- A real as a JSON number. -/
def renderDouble (d : Double) : String :=
  if d.isFinite then d.text Double.jsonLayout else "null"

mutual

/-- The JSON text of a value. -/
def Value.render : Value → String
  | .null | .void => "null"
  | .bool b => if b then "true" else "false"
  | .int n => toString n
  | .real d => renderDouble d
  | .string s => quoteString s
  | .array elements => "[" ++ ",".intercalate (renderElements elements) ++ "]"
  | .object fields => "\x7b" ++ ",".intercalate (renderFields fields) ++ "\x7d"

/-- The JSON texts of the elements of an array. -/
def renderElements : List Value → List String
  | [] => []
  | v :: rest => v.render :: renderElements rest

/-- The JSON texts of the fields of an object. -/
def renderFields : List (String × Value) → List String
  | [] => []
  | (name, v) :: rest => (quoteString name ++ ":" ++ v.render) :: renderFields rest

end

end DisBackend.Json
