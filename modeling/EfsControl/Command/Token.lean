/-
# Splitting a line into tokens

A line is split at spaces and tabs. Between double quotes they do not split,
and a backslash takes the next character as it is, inside quotes and outside.
A pair of quotes makes a token even when nothing stands between them.

Key definitions: `TokenError`, `Token.scan`, `tokenize`.
Key theorems: `scan_backslash`, `scan_quote`, `scan_separator`, `scan_other`.
-/
namespace EfsControl

/-- Why a line has no tokens. -/
inductive TokenError
  | unterminatedQuote
  | trailingEscape
  deriving DecidableEq, Repr

/-- The wording of the error. -/
def TokenError.message : TokenError → String
  | .unterminatedQuote => "unterminated quote"
  | .trailingEscape => "line ends with a lone escape character"

namespace Token

/-- The characters that separate tokens. -/
def isSeparator (c : Char) : Bool := c == ' ' || c == '\t'

/-- One more character of the token that is being read, which is kept reversed. -/
def extend (current : Option (List Char)) (c : Char) : Option (List Char) :=
  some (c :: current.getD [])

/-- The token read so far in front of `rest`, if one has begun. -/
def finish (current : Option (List Char)) (rest : List (List Char)) : List (List Char) :=
  match current with
  | none => rest
  | some cs => cs.reverse :: rest

/-- The tokens of the rest of a line: `quoted` between two quotes, with the token that has begun. -/
def scan : List Char → (quoted : Bool) → (current : Option (List Char)) →
    Except TokenError (List (List Char))
  | [], quoted, current => if quoted then .error .unterminatedQuote else .ok (finish current [])
  | c :: cs, quoted, current =>
    if c = '\\' then
      match cs with
      | [] => .error .trailingEscape
      | d :: ds => scan ds quoted (extend current d)
    else if c = '"' then scan cs (!quoted) (some (current.getD []))
    else if isSeparator c && !quoted then (scan cs false none).map (finish current)
    else scan cs quoted (extend current c)

section
variable (cs : List Char) (quoted : Bool) (current : Option (List Char)) {c : Char}

theorem scan_backslash (d : Char) :
    scan ('\\' :: d :: cs) quoted current = scan cs quoted (extend current d) := by
  rw [scan.eq_def]
  rfl

theorem scan_quote :
    scan ('"' :: cs) quoted current = scan cs (!quoted) (some (current.getD [])) := by
  rw [scan.eq_def]
  rfl

/-- A separator that is not quoted ends the token that has begun. -/
theorem scan_separator (hc : isSeparator c = true) :
    scan (c :: cs) false current = (scan cs false none).map (finish current) := by
  have hb : c ≠ '\\' := by
    intro he
    rw [he] at hc
    cases hc
  have hq : c ≠ '"' := by
    intro he
    rw [he] at hc
    cases hc
  rw [scan.eq_def]
  simp only [hb, hq, hc, if_false, if_true, Bool.not_false, Bool.and_true]

/-- Any other character goes on with the token. -/
theorem scan_other (hb : c ≠ '\\') (hq : c ≠ '"') (hs : (isSeparator c && !quoted) = false) :
    scan (c :: cs) quoted current = scan cs quoted (extend current c) := by
  rw [scan.eq_def]
  simp only [hb, hq, hs, if_false, Bool.false_eq_true]

end

end Token

/-- The tokens of a line. -/
def tokenize (line : String) : Except TokenError (List String) :=
  (Token.scan line.toList false none).map (·.map String.ofList)

example : (tokenize "a  \"b c\"\t\\\" \"\" d\"e f\"").toOption = some ["a", "b c", "\"", "", "de f"] := by
  decide +kernel

example : (tokenize "\"a\\").toOption = none := by decide +kernel

end EfsControl
