import TreeProtocol.Text.Printable

/-!
# Quoted text

A text between quotation marks, on one line and with nothing hidden. The quotation mark, the
backslash, the line breaks, the tab and the null character have short escapes, and every other
character that leaves no mark of its own is written by its code point.
-/

namespace TreeProtocol.Text

/-- A character as it stands in quoted text. -/
def escape (c : Char) : String :=
  if c = '\x00' then "\\0"
  else if c = '\t' then "\\t"
  else if c = '\r' then "\\r"
  else if c = '\n' then "\\n"
  else if c = '"' then "\\\""
  else if c = '\\' then "\\\\"
  else if isShown c then String.singleton c
  else "\\u\x7b" ++ String.ofList (Nat.toDigits 16 c.toNat) ++ "\x7d"

/-- The text between quotation marks. -/
def quoted (s : String) : String :=
  "\"" ++ String.join (s.toList.map escape) ++ "\""

example : quoted "a\"\\\n\x07b" = "\"a\\\"\\\\\\n\\u\x7b7\x7db\"" := by decide +kernel
example : isShown 'é' = true ∧ isShown '\u200d' = false ∧ isShown '\u0301' = false := by
  decide +kernel

end TreeProtocol.Text
