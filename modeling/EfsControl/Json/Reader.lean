/-
# Reading JSON from the front of a text

Numbers and words are read one at a time; a value that nobody asked for is
read over. Between values, spaces, tabs and line ends do not count. A number
is refused when it is too large for a double, but not when it is only read
over.

Key definitions: `skipBlanks`, `readNumber`, `readWord`, `skipValue`,
`wrongValue`.
-/
import EfsControl.Json.Text
import EfsControl.Text.Magnitude

namespace EfsControl
namespace Json

/-- The characters that may stand between values. -/
def isBlank (c : Char) : Bool := c == ' ' || c == '\n' || c == '\t' || c == '\r'

/-- What follows the blanks at the front of a text. -/
def skipBlanks (cs : List Char) : List Char := cs.dropWhile isBlank

/-- What follows a word, of which the text in front of `cs` has been taken. -/
def readWord : (word : List Char) → List Char → Except Fault (List Char)
  | [], cs => .ok cs
  | _ :: _, [] => .error .truncated
  | w :: ws, c :: cs => if c = w then readWord ws cs else .error .malformed

/-! ### Numbers -/

/-- A number that has been read. -/
structure Number where
  negative : Bool
  mantissa : Nat
  exponent : Int
  /-- Whether neither a fraction nor an exponent was written. -/
  whole : Bool

/-- The whole number that was written, if it was one. A negative zero is none. -/
def Number.integer? (n : Number) : Option Int :=
  if !n.whole then none
  else if !n.negative then some n.mantissa
  else if n.mantissa = 0 then none
  else some (-(n.mantissa : Int))

/-- What is wrong where a digit is missing. -/
def noDigit : List Char → Fault
  | [] => .truncated
  | _ => .malformed

/-- The digits at the front of a text and what follows them; at least one. -/
def readDigits (cs : List Char) : Except Fault (List Char × List Char) :=
  match cs.takeWhile Char.isDigit with
  | [] => .error (noDigit cs)
  | ds => .ok (ds, cs.dropWhile Char.isDigit)

/-- The digits in front of a fraction: `0`, or digits that do not begin with it. -/
def readWhole : List Char → Except Fault (List Char × List Char)
  | '0' :: cs => if (cs.head?.map Char.isDigit).getD false then .error .malformed else .ok (['0'], cs)
  | cs => readDigits cs

/-- The digits of a fraction, if there is one. -/
def readFraction : List Char → Except Fault (List Char × List Char)
  | '.' :: cs => readDigits cs
  | cs => .ok ([], cs)

/-- A sign that may be missing, and what follows it. -/
def takeSign : List Char → Bool × List Char
  | '-' :: cs => (true, cs)
  | '+' :: cs => (false, cs)
  | cs => (false, cs)

/-- Whether a character begins an exponent. -/
def isExponentMark (c : Char) : Bool := c == 'e' || c == 'E'

/-- An exponent, if there is one. -/
def readExponent : List Char → Except Fault (Option Int × List Char)
  | [] => .ok (none, [])
  | c :: cs =>
    if isExponentMark c then
      let (negative, body) := takeSign cs
      (readDigits body).map fun (ds, rest) =>
        let n : Int := Nat.ofDigitChars 10 ds 0
        (some (if negative then -n else n), rest)
    else .ok (none, c :: cs)

/-- A number after its sign, and what follows it. -/
def readUnsigned (negative : Bool) (cs : List Char) : Except Fault (Number × List Char) := do
  let (whole, cs) ← readWhole cs
  let (fraction, cs) ← readFraction cs
  let (exponent, cs) ← readExponent cs
  return (⟨negative, Nat.ofDigitChars 10 (whole ++ fraction) 0, exponent.getD 0 - fraction.length,
    fraction.isEmpty && exponent.isNone⟩, cs)

/-- A number of any size, and what follows it. -/
def scanNumber : List Char → Except Fault (Number × List Char)
  | '-' :: cs => readUnsigned true cs
  | cs => readUnsigned false cs

/-- A number that a double can hold, and what follows it. -/
def readNumber (cs : List Char) : Except Fault (Number × List Char) := do
  let (n, rest) ← scanNumber cs
  if Text.exceedsDouble n.mantissa n.exponent then .error .malformed
  return (n, rest)

/-- Whether a character begins a number. -/
def beginsNumber (c : Char) : Bool := c == '-' || c.isDigit

/-! ### Values that nobody asked for -/

/-- What is wrong with a value that could be read, or why it could not. -/
def mismatch {α : Type} : Except Fault α → Fault
  | .error f => f
  | .ok _ => .mismatched

/-- What is wrong with a value at the front of a text that is of another kind than the one asked
for. Numbers, texts and words are read first. -/
def wrongValue (text : TextReader) : List Char → Fault
  | [] => .malformed
  | c :: cs =>
    if c = 'n' then mismatch (readWord "ull".toList cs)
    else if c = 't' then mismatch (readWord "rue".toList cs)
    else if c = 'f' then mismatch (readWord "alse".toList cs)
    else if beginsNumber c then mismatch (readNumber (c :: cs))
    else if c = '"' then mismatch (text cs)
    else if c = '[' || c = '\x7b' then .mismatched
    else .malformed

/-- What follows a number that is read over. Everything that is wrong with it makes it no JSON. -/
def skipNumber (cs : List Char) : Except Fault (List Char) :=
  match scanNumber cs with
  | .ok (_, rest) => .ok rest
  | .error _ => .error .malformed

mutual

/-- What follows a value. -/
def skipValue : (fuel : Nat) → List Char → Except Fault (List Char)
  | 0, _ => .error .truncated
  | fuel + 1, cs =>
    match skipBlanks cs with
    | [] => .error .truncated
    | c :: cs =>
      if c = 'n' then readWord "ull".toList cs
      else if c = 't' then readWord "rue".toList cs
      else if c = 'f' then readWord "alse".toList cs
      else if beginsNumber c then skipNumber (c :: cs)
      else if c = '"' then skipText cs
      else if c = '[' then
        match skipBlanks cs with
        | ']' :: rest => .ok rest
        | [] => .error .truncated
        | cs => skipItems fuel cs
      else if c = '\x7b' then
        match skipBlanks cs with
        | '\x7d' :: rest => .ok rest
        | cs => skipFields fuel cs
      else .error .malformed

/-- What follows the rest of an array, from one of its members on. -/
def skipItems : (fuel : Nat) → List Char → Except Fault (List Char)
  | 0, _ => .error .truncated
  | fuel + 1, cs => do
    let rest ← skipValue fuel cs
    match skipBlanks rest with
    | [] => .error .truncated
    | ']' :: rest => return rest
    | ',' :: rest => skipItems fuel rest
    | _ => .error .malformed

/-- What follows the rest of an object, from the name of one of its fields on. -/
def skipFields : (fuel : Nat) → List Char → Except Fault (List Char)
  | 0, _ => .error .truncated
  | fuel + 1, cs => do
    match skipBlanks cs with
    | [] => .error .truncated
    | '"' :: cs =>
      let rest ← skipText cs
      match skipBlanks rest with
      | [] => .error .truncated
      | ':' :: rest =>
        let rest ← skipValue fuel rest
        match skipBlanks rest with
        | [] => .error .truncated
        | '\x7d' :: rest => return rest
        | ',' :: rest => skipFields fuel rest
        | _ => .error .malformed
      | _ => .error .malformed
    | _ => .error .malformed

end

/-- What follows a value. Every step into it takes up a character. -/
def skipAny (cs : List Char) : Except Fault (List Char) := skipValue (cs.length + 1) cs

end Json
end EfsControl
