/-
# JSON texts

A text stands between double quotes. Quotes, backslashes and the characters
below U+0020 are escaped; five of those have a letter of their own. A reader
also takes `\/` and four hexadecimal digits for any character, two such
escapes in a row for one above U+FFFF.

Key definitions: `Json.Fault`, `Json.writeText`, `readEscape`, `readText`,
`skipText`, `readUnmarked`.
-/
import EfsControl.Text.Utf8

namespace EfsControl
namespace Json

/-- Why a JSON text does not give what was asked for. -/
inductive Fault
  /-- It is not JSON. -/
  | malformed
  /-- It is JSON, but of another shape, or a number is out of range. -/
  | mismatched
  /-- It ends too early. -/
  | truncated
  deriving DecidableEq, Repr

/-! ### Writing -/

/-- A number below 256 in two hexadecimal digits. -/
def hexPair (n : Nat) : List Char := [Nat.digitChar (n / 16 % 16), Nat.digitChar (n % 16)]

/-- A character between quotes. -/
def escapeChar (c : Char) : List Char :=
  if c = '"' then ['\\', '"']
  else if c = '\\' then ['\\', '\\']
  else if c = '\x08' then ['\\', 'b']
  else if c = '\t' then ['\\', 't']
  else if c = '\n' then ['\\', 'n']
  else if c = '\x0c' then ['\\', 'f']
  else if c = '\r' then ['\\', 'r']
  else if c.toNat < 0x20 then ['\\', 'u', '0', '0'] ++ hexPair c.toNat
  else [c]

/-- A text between quotes. -/
def writeText (cs : List Char) : List Char := '"' :: cs.flatMap escapeChar ++ ['"']

/-! ### Reading -/

/-- The value of a hexadecimal digit. -/
def hexValue? (c : Char) : Option Nat :=
  if c.isDigit then some (c.toNat - '0'.toNat)
  else if 'a' ≤ c && c ≤ 'f' then some (c.toNat - 'a'.toNat + 10)
  else if 'A' ≤ c && c ≤ 'F' then some (c.toNat - 'A'.toNat + 10)
  else none

/-- The number that four hexadecimal digits give, and what follows them. A text of less than four
bytes has ended too early. -/
def readHex (cs : List Char) : Except Fault (Nat × List Char) :=
  if (Utf8.encode (cs.take 4)).length < 4 then .error .truncated
  else
    match (cs.take 4).mapM hexValue? with
    | some [a, b, c, d] => .ok (((a * 16 + b) * 16 + c) * 16 + d, cs.drop 4)
    | _ => .error .malformed

/-- Whether a code unit begins a pair. -/
def isHighSurrogate (n : Nat) : Bool := 0xD800 ≤ n && n ≤ 0xDBFF

/-- Whether a code unit ends a pair. -/
def isLowSurrogate (n : Nat) : Bool := 0xDC00 ≤ n && n ≤ 0xDFFF

/-- The character that a first code unit and the text after it give. -/
def readUnits (n : Nat) (cs : List Char) : Except Fault (Char × List Char) :=
  if isLowSurrogate n then .error .malformed
  else if isHighSurrogate n then
    match cs with
    | [] => .error .truncated
    | ['\\'] => .error .truncated
    | '\\' :: 'u' :: rest =>
      match readHex rest with
      | .error f => .error f
      | .ok (m, rest) =>
        if isLowSurrogate m then
          .ok (Char.ofNat (0x10000 + (n - 0xD800) * 0x400 + (m - 0xDC00)), rest)
        else .error .malformed
    | _ => .error .malformed
  else .ok (Char.ofNat n, cs)

/-- The character that a letter after a backslash stands for. -/
def readLetter? : Char → Option Char
  | '"' => some '"'
  | '\\' => some '\\'
  | '/' => some '/'
  | 'b' => some '\x08'
  | 'f' => some '\x0c'
  | 'n' => some '\n'
  | 'r' => some '\r'
  | 't' => some '\t'
  | _ => none

/-- The character that the text after a backslash begins with, and what follows it. -/
def readEscape : List Char → Except Fault (Char × List Char)
  | [] => .error .truncated
  | c :: cs =>
    if c = 'u' then
      match readHex cs with
      | .error f => .error f
      | .ok (n, rest) => readUnits n rest
    else
      match readLetter? c with
      | some d => .ok (d, cs)
      | none => .error .malformed

/-- What follows an escape that is not looked at closely. -/
def skipEscape : List Char → Except Fault (List Char)
  | [] => .error .truncated
  | c :: cs =>
    if c = 'u' then
      match readHex cs with
      | .error f => .error f
      | .ok (_, rest) => .ok rest
    else if (readLetter? c).isSome then .ok cs
    else .error .malformed

theorem readHex_length {cs rest : List Char} {n : Nat} (h : readHex cs = .ok (n, rest)) :
    rest.length ≤ cs.length := by
  unfold readHex at h
  split at h
  · simp at h
  · split at h
    · simp only [Except.ok.injEq, Prod.mk.injEq] at h
      simp [← h.2]
    · simp at h

theorem readUnits_length {cs rest : List Char} {n : Nat} {c : Char}
    (h : readUnits n cs = .ok (c, rest)) : rest.length ≤ cs.length := by
  unfold readUnits at h
  split at h
  · simp at h
  · split at h
    · split at h
      · simp at h
      · simp at h
      · split at h
        · simp at h
        · rename_i heq
          split at h
          · simp only [Except.ok.injEq, Prod.mk.injEq] at h
            have := readHex_length heq
            simp only [List.length_cons, ← h.2]
            omega
          · simp at h
      · simp at h
    · simp only [Except.ok.injEq, Prod.mk.injEq] at h
      simp [h.2]

theorem readEscape_length {cs rest : List Char} {c : Char} (h : readEscape cs = .ok (c, rest)) :
    rest.length < cs.length := by
  cases cs with
  | nil => simp [readEscape] at h
  | cons d cs =>
    rw [readEscape] at h
    split at h
    · split at h
      · simp at h
      · rename_i heq
        have h₁ := readHex_length heq
        have h₂ := readUnits_length h
        simp only [List.length_cons]
        omega
    · split at h
      · simp only [Except.ok.injEq, Prod.mk.injEq] at h
        simp [h.2]
      · simp at h

theorem skipEscape_length {cs rest : List Char} (h : skipEscape cs = .ok rest) :
    rest.length < cs.length := by
  cases cs with
  | nil => simp [skipEscape] at h
  | cons d cs =>
    rw [skipEscape] at h
    split at h
    · split at h
      · simp at h
      · rename_i heq
        have h₁ := readHex_length heq
        simp only [Except.ok.injEq] at h
        simp only [List.length_cons, ← h]
        omega
    · split at h
      · simp only [Except.ok.injEq] at h
        simp [h]
      · simp at h

/-- A text up to its closing quote, and what follows it. -/
def readText : List Char → Except Fault (List Char × List Char)
  | [] => .error .truncated
  | c :: cs =>
    if c = '"' then .ok ([], cs)
    else if c = '\\' then
      match h : readEscape cs with
      | .error f => .error f
      | .ok (d, rest) =>
        have := readEscape_length h
        (readText rest).map fun (s, more) => (d :: s, more)
    else if c.toNat < 0x20 then .error .malformed
    else (readText cs).map fun (s, more) => (c :: s, more)
termination_by cs => cs.length
decreasing_by
  · simp only [List.length_cons]; omega
  · simp

/-- What follows the closing quote of a text. -/
def skipText : List Char → Except Fault (List Char)
  | [] => .error .truncated
  | c :: cs =>
    if c = '"' then .ok cs
    else if c = '\\' then
      match h : skipEscape cs with
      | .error f => .error f
      | .ok rest =>
        have := skipEscape_length h
        skipText rest
    else if c.toNat < 0x20 then .error .malformed
    else skipText cs
termination_by cs => cs.length
decreasing_by
  · simp only [List.length_cons]; omega
  · simp

/-- How texts are read: up to the closing quote. -/
abbrev TextReader := List Char → Except Fault (List Char × List Char)

/-- A text up to its closing quote, and what follows it. It must not contain any of the marked
characters, which stand for bytes that are no text; they are counted from the end. -/
def readUnmarked (marks : List Nat) : TextReader := fun cs =>
  match readText cs with
  | .error f => .error f
  | .ok (s, rest) =>
    if marks.any fun place => rest.length ≤ place && place < cs.length then .error .malformed
    else .ok (s, rest)

end Json
end EfsControl
