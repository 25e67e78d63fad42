/-
# Quoted texts in a configuration

A text stands between double quotes, where a backslash begins an escape, or
between single quotes, where every character stands for itself. Between three
quotes of either kind it may hold line ends; the first line end is dropped if
it comes at once, and one or two quotes may stand right before the closing
three.

A text is written in the first of these forms that shows it without an
escape: double quotes, single quotes, three double quotes, three single
quotes. If none does, it is written with escapes, between three double quotes
when it has more than one line.

Key definitions: `readBasic`, `readLiteral`, `readLongBasic`,
`readLongLiteral`, `Form.ofText`, `writeText`.
-/
import EfsControl.Toml.Scalar

namespace EfsControl
namespace Toml

/-! ### Reading -/

/-- The characters that stand for themselves in a text on one line. -/
def isTextChar (c : Char) : Bool := c == '\t' || (0x20 ≤ c.toNat && c.toNat != 0x7F)

/-- The character with a number given by hexadecimal digits. -/
def readCodePoint? (ds : List Char) : Option Char :=
  let n := valueIn 16 ds
  if ds.all (digitValue · < 16) && n.isValidChar then some (Char.ofNat n) else none

/-- The character that a one-letter escape stands for. -/
def readShortEscape? : Char → Option Char
  | 'b' => some '\x08'
  | 't' => some '\t'
  | 'n' => some '\n'
  | 'f' => some '\x0c'
  | 'r' => some '\r'
  | 'e' => some '\x1b'
  | '"' => some '"'
  | '\\' => some '\\'
  | _ => none

/-- How many hexadecimal digits follow the letter of a numeric escape. -/
def escapeDigits? : Char → Option Nat
  | 'x' => some 2
  | 'u' => some 4
  | 'U' => some 8
  | _ => none

/-- The character that the text after a backslash begins with, and what follows it. -/
def readEscape? : List Char → Option (Char × List Char)
  | [] => none
  | c :: cs =>
    match escapeDigits? c with
    | some n =>
      if (cs.take n).length = n then (readCodePoint? (cs.take n)).map fun d => (d, cs.drop n) else none
    | none => (readShortEscape? c).map fun d => (d, cs)

theorem readEscape?_length {cs : List Char} {d : Char} {rest : List Char}
    (h : readEscape? cs = some (d, rest)) : rest.length < cs.length := by
  cases cs with
  | nil => simp [readEscape?] at h
  | cons c cs =>
    rw [readEscape?] at h
    split at h
    · split at h
      · obtain ⟨_, _, hr⟩ := Option.map_eq_some_iff.1 h
        simp only [Prod.mk.injEq] at hr
        rw [← hr.2, List.length_drop, List.length_cons]
        omega
      · simp at h
    · obtain ⟨_, _, hr⟩ := Option.map_eq_some_iff.1 h
      simp only [Prod.mk.injEq] at hr
      rw [← hr.2, List.length_cons]
      omega

/-- A text up to its closing double quote, and what follows it. -/
def readBasic : List Char → Option (List Char × List Char)
  | [] => none
  | c :: cs =>
    if c = '"' then some ([], cs)
    else if c = '\\' then
      match h : readEscape? cs with
      | none => none
      | some (d, rest) =>
        have := readEscape?_length h
        (readBasic rest).map fun (s, more) => (d :: s, more)
    else if isTextChar c then (readBasic cs).map fun (s, more) => (c :: s, more)
    else none
termination_by cs => cs.length
decreasing_by
  · simp only [List.length_cons]; omega
  · simp

/-- A text up to its closing single quote, and what follows it. -/
def readLiteral : List Char → Option (List Char × List Char)
  | [] => none
  | c :: cs =>
    if c = '\'' then some ([], cs)
    else if isTextChar c then (readLiteral cs).map fun (s, more) => (c :: s, more)
    else none

/-- A line end, and what follows it. -/
def takeLineEnd? : List Char → Option (List Char × List Char)
  | '\n' :: cs => some (['\n'], cs)
  | '\r' :: '\n' :: cs => some (['\r', '\n'], cs)
  | _ => none

/-- The text without a line end at its front. -/
def dropLineEnd (cs : List Char) : List Char :=
  match takeLineEnd? cs with
  | some (_, rest) => rest
  | none => cs

/-- Spaces and tabs. -/
def isSpace (c : Char) : Bool := c == ' ' || c == '\t'

/-- What follows the spaces and line ends at the front of a text. -/
def skipSpaceLines : List Char → List Char
  | '\r' :: '\n' :: cs => skipSpaceLines cs
  | c :: cs => if isSpace c || c = '\n' then skipSpaceLines cs else c :: cs
  | [] => []

/-- What follows a backslash at the end of a line, with the spaces and line ends after it. -/
def skipContinuation? (cs : List Char) : Option (List Char) :=
  match takeLineEnd? (cs.dropWhile isSpace) with
  | some (_, rest) => some (skipSpaceLines rest)
  | none => none

theorem skipSpaceLines_length (cs : List Char) : (skipSpaceLines cs).length ≤ cs.length := by
  fun_induction skipSpaceLines cs with
  | case1 cs ih => simp only [List.length_cons]; omega
  | case2 c cs _ _ ih => simp only [List.length_cons]; omega
  | case3 => exact Nat.le_refl _
  | case4 => exact Nat.le_refl _

theorem takeLineEnd?_length {cs l rest : List Char} (h : takeLineEnd? cs = some (l, rest)) :
    rest.length < cs.length := by
  unfold takeLineEnd? at h
  split at h
  · simp only [Option.some.injEq, Prod.mk.injEq] at h
    simp [h.2]
  · simp only [Option.some.injEq, Prod.mk.injEq] at h
    simp only [List.length_cons, h.2]
    omega
  · simp at h

theorem skipContinuation?_length {cs rest : List Char} (h : skipContinuation? cs = some rest) :
    rest.length < cs.length := by
  have hd : (cs.dropWhile isSpace).length ≤ cs.length := (List.dropWhile_suffix _).length_le
  unfold skipContinuation? at h
  split at h
  · rename_i rest' heq
    have h₁ := takeLineEnd?_length heq
    have h₂ := skipSpaceLines_length rest'
    simp only [Option.some.injEq] at h
    subst h
    omega
  · simp at h

/-- What closes a text between three marks: the marks that still belong to the text, and what
follows. -/
def takeClosing? (mark : Char) : List Char → Option (List Char × List Char)
  | a :: b :: c :: cs =>
    if a = mark && b = mark && c = mark then
      match cs with
      | d :: e :: rest =>
        if d = mark && e = mark then some ([mark, mark], rest)
        else if d = mark then some ([mark], e :: rest)
        else some ([], cs)
      | [d] => if d = mark then some ([mark], []) else some ([], cs)
      | [] => some ([], [])
    else none
  | _ => none

/-- A text up to its three closing double quotes, and what follows them. -/
def readLongBasic : List Char → Option (List Char × List Char)
  | [] => none
  | c :: cs =>
    match takeClosing? '"' (c :: cs) with
    | some closed => some closed
    | none =>
      if c = '\\' then
        match h : skipContinuation? cs with
        | some rest =>
          have := skipContinuation?_length h
          readLongBasic rest
        | none =>
          match h : readEscape? cs with
          | none => none
          | some (d, rest) =>
            have := readEscape?_length h
            (readLongBasic rest).map fun (s, more) => (d :: s, more)
      else if isTextChar c || c = '\n' || (c = '\r' && cs.head? = some '\n') then
        (readLongBasic cs).map fun (s, more) => (c :: s, more)
      else none
termination_by cs => cs.length
decreasing_by
  · simp only [List.length_cons]; omega
  · simp only [List.length_cons]; omega
  · simp

/-- A text up to its three closing single quotes, and what follows them. -/
def readLongLiteral : List Char → Option (List Char × List Char)
  | [] => none
  | c :: cs =>
    match takeClosing? '\'' (c :: cs) with
    | some closed => some closed
    | none =>
      if isTextChar c || c = '\n' || (c = '\r' && cs.head? = some '\n') then
        (readLongLiteral cs).map fun (s, more) => (c :: s, more)
      else none

/-- A text in any of its forms at the front of a text, and what follows it; nothing if no quote is
at the front. -/
def readText? : List Char → Option (Option (List Char × List Char))
  | '"' :: '"' :: '"' :: cs => some (readLongBasic (dropLineEnd cs))
  | '\'' :: '\'' :: '\'' :: cs => some (readLongLiteral (dropLineEnd cs))
  | '"' :: cs => some (readBasic cs)
  | '\'' :: cs => some (readLiteral cs)
  | _ => none

/-! ### Writing -/

/-- The forms in which a text can be written. -/
inductive Form
  | basic
  | literal
  | longBasic
  | longLiteral
  deriving DecidableEq, Repr

/-- Characters that only an escape can show. -/
def isControl (c : Char) : Bool := (c.toNat < 0x20 && c != '\t' && c != '\n') || c.toNat == 0x7F

/-- The length of the longest run of a mark. -/
def longestRun (mark : Char) (cs : List Char) : Nat :=
  (cs.foldl (fun (best, here) c => if c = mark then (max best (here + 1), here + 1) else (best, 0))
    (0, 0)).1

/-- The form in which a text is written. -/
def Form.ofText (cs : List Char) : Form :=
  let plain := !cs.any isControl
  let oneLine := !cs.contains '\n'
  if plain && oneLine && !cs.contains '\\' && !cs.contains '"' then .basic
  else if plain && oneLine && !cs.contains '\'' then .literal
  else if plain && !cs.contains '\\' && longestRun '"' cs ≤ 2 then .longBasic
  else if plain && longestRun '\'' cs ≤ 2 then .longLiteral
  else if oneLine then .basic
  else .longBasic

/-- A number below 256 in two hexadecimal digits. -/
def hexPair (n : Nat) : List Char :=
  [Nat.digitChar (n / 16 % 16), Nat.digitChar (n % 16)].map Char.toUpper

/-- A character between double quotes, other than a double quote or a line feed. -/
def escapeControl (c : Char) : List Char :=
  if c = '\x08' then ['\\', 'b']
  else if c = '\t' then ['\\', 't']
  else if c = '\x0c' then ['\\', 'f']
  else if c = '\r' then ['\\', 'r']
  else if c = '\\' then ['\\', '\\']
  else if c.toNat < 0x20 || c.toNat = 0x7F then ['\\', 'u', '0', '0'] ++ hexPair c.toNat
  else [c]

/-- A character of a text on one line. -/
def escapeBasic (c : Char) : List Char :=
  if c = '"' then ['\\', '"'] else if c = '\n' then ['\\', 'n'] else escapeControl c

/-- The characters of a text on several lines, after `quotes` double quotes in a row: every third
one is escaped. -/
def escapeLong (quotes : Nat) : List Char → List Char
  | [] => []
  | c :: cs =>
    if c = '"' then
      if quotes < 2 then '"' :: escapeLong (quotes + 1) cs else '\\' :: '"' :: escapeLong 0 cs
    else if c = '\n' then '\n' :: escapeLong 0 cs
    else escapeControl c ++ escapeLong 0 cs

/-- The line end in front of a text of several lines. -/
def leadingLineEnd (cs : List Char) : List Char := if cs.contains '\n' then ['\n'] else []

/-- A text in the form that fits it. -/
def writeText (cs : List Char) : List Char :=
  match Form.ofText cs with
  | .basic => '"' :: cs.flatMap escapeBasic ++ ['"']
  | .literal => '\'' :: cs ++ ['\'']
  | .longBasic =>
    ['"', '"', '"'] ++ leadingLineEnd cs ++ escapeLong 0 cs ++ ['"', '"', '"']
  | .longLiteral => ['\'', '\'', '\''] ++ leadingLineEnd cs ++ cs ++ ['\'', '\'', '\'']

end Toml
end EfsControl
