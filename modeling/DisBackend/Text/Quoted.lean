import DisBackend.Text.CharClass
import DisBackend.Text.Numeral

/-!
# `Text.Quoted` — strings in double quotes

Listings show a string in double quotes. The quote, the backslash and five control characters are
written with a backslash; any other character that has no form of its own is written by its number
in braces.

## Contents

* `escape`, `quoted`.
-/

namespace DisBackend.Text

/-- How a character stands in a quoted string. -/
def escape (c : Char) : String :=
  if c = '\x00' then "\\0"
  else if c = '\t' then "\\t"
  else if c = '\n' then "\\n"
  else if c = '\r' then "\\r"
  else if c = '"' then "\\\""
  else if c = '\\' then "\\\\"
  else if isExtender c || !isPrintable c then "\\u\x7b" ++ hexDigits c.toNat ++ "\x7d"
  else c.toString

/-- A string in double quotes. -/
def quoted (s : String) : String := "\"" ++ String.join (s.toList.map escape) ++ "\""

end DisBackend.Text
