/-
# Quoted texts

How a message shows a text or a character that came from outside: between
quotes, with a backslash in front of a quote or a backslash, short escapes
for NUL, tab, line feed and carriage return, and every other character that
would not show up as itself by its number.

Key definitions: `escapeShown`, `quoted`, `quotedChar`, `record`.
-/
import EfsControl.Text.Shown

namespace EfsControl
namespace Text

/-- A character inside a text quoted by `mark`. -/
def escapeShown (mark c : Char) : List Char :=
  if c == '\x00' then ['\\', '0']
  else if c == '\t' then ['\\', 't']
  else if c == '\r' then ['\\', 'r']
  else if c == '\n' then ['\\', 'n']
  else if c == '\\' || c == mark then ['\\', c]
  else if isShown c then [c]
  else ['\\', 'u', '\x7b'] ++ Nat.toDigits 16 c.toNat ++ ['\x7d']

/-- A text between double quotes. -/
def quoted (s : String) : String :=
  String.ofList ('"' :: s.toList.flatMap (escapeShown '"') ++ ['"'])

/-- A character between single quotes. -/
def quotedChar (c : Char) : String :=
  String.ofList ('\'' :: escapeShown '\'' c ++ ['\''])

/-- A named record with its fields in order. -/
def record (name : String) (fields : List (String × String)) : String :=
  name ++ " \x7b " ++ String.intercalate ", " (fields.map fun (f, v) => f ++ ": " ++ v) ++ " \x7d"

/-- A list of shown values. -/
def bracketed (items : List String) : String := "[" ++ String.intercalate ", " items ++ "]"

example : quoted "a\"\\\n\u0001é\u0301'" = "\"a\\\"\\\\\\n\\u\x7b1\x7dé\\u\x7b301\x7d'\"" := by
  decide +kernel

example : quotedChar '\n' = "'\\n'" := by decide +kernel

end Text
end EfsControl
