/-
# Reading a configuration text

Statements stand on lines of their own, with comments and blank lines between
them. An array or a table between braces may run over several lines, and a
comma may stand after its last member; at most eighty of them may be nested.
A byte order mark in front of the text is skipped.

Key definitions: `readPath`, `readValue`, `readStatements`, `Toml.read?`.
-/
import EfsControl.Toml.Quoted
import EfsControl.Toml.Table

namespace EfsControl
namespace Toml

/-- What follows the spaces at the front of a text. -/
def skipSpaces (cs : List Char) : List Char := cs.dropWhile isSpace

/-- What follows spaces, line ends and comments, if the comments hold no control characters. -/
def skipGap : (inComment : Bool) → List Char → Option (List Char)
  | _, [] => some []
  | _, '\r' :: '\n' :: cs => skipGap false cs
  | inComment, c :: cs =>
    if c = '\n' then skipGap false cs
    else if inComment then if isTextChar c then skipGap true cs else none
    else if isSpace c then skipGap false cs
    else if c = '#' then skipGap true cs
    else some (c :: cs)

/-- What follows the rest of a line that holds at most spaces and a comment. -/
def endLine : (inComment : Bool) → List Char → Option (List Char)
  | _, [] => some []
  | _, '\r' :: '\n' :: cs => some cs
  | inComment, c :: cs =>
    if c = '\n' then some cs
    else if inComment then if isTextChar c then endLine true cs else none
    else if isSpace c then endLine false cs
    else if c = '#' then endLine true cs
    else none

/-- The characters of a key without quotes. -/
def isKeyChar (c : Char) : Bool := c.isAlphanum || c == '_' || c == '-'

/-- A key at the front of a text, and what follows it. -/
def readKey : List Char → Option (List Char × List Char)
  | '"' :: cs => readBasic cs
  | '\'' :: cs => readLiteral cs
  | cs =>
    match cs.takeWhile isKeyChar with
    | [] => none
    | key => some (key, cs.dropWhile isKeyChar)

/-- Keys with dots between them, and what follows them and the spaces after them. -/
def readPath : (fuel : Nat) → List Char → Option (Path × List Char)
  | 0, _ => none
  | fuel + 1, cs =>
    match readKey (skipSpaces cs) with
    | none => none
    | some (key, rest) =>
      match skipSpaces rest with
      | '.' :: more =>
        (readPath fuel more).map fun (path, rest) => (⟨key :: path.parents, path.key⟩, rest)
      | rest => some (⟨[], key⟩, rest)

/-- How deep arrays and tables between braces may be nested. -/
def nestingLimit : Nat := 80

mutual

/-- A value at the front of a text, and what follows it. -/
def readValue : (fuel depth : Nat) → List Char → Option (Value × List Char)
  | 0, _, _ => none
  | fuel + 1, depth, cs =>
    match readText? cs with
    | some result => result.map fun (s, rest) => (.text s, rest)
    | none =>
      match depth, cs with
      | 0, '[' :: _ | 0, '\x7b' :: _ => none
      | depth + 1, '[' :: cs =>
        (readItems fuel depth cs).map fun (items, rest) => (.array false items, rest)
      | depth + 1, '\x7b' :: cs => do
        let (fields, rest) ← readFields fuel depth cs
        let entries ← bracedEntries fields
        return (.table .braced entries, rest)
      | _, cs =>
        let (word, rest) := takeScalar cs
        (readScalar? word).map fun v => (v, rest)

/-- The members of an array up to its closing bracket, and what follows it. -/
def readItems : (fuel depth : Nat) → List Char → Option (List Value × List Char)
  | 0, _, _ => none
  | fuel + 1, depth, cs => do
    match ← skipGap false cs with
    | ']' :: rest => return ([], rest)
    | cs =>
      let (v, rest) ← readValue fuel depth cs
      match ← skipGap false rest with
      | ']' :: rest => return ([v], rest)
      | ',' :: rest =>
        let (vs, rest) ← readItems fuel depth rest
        return (v :: vs, rest)
      | _ => none

/-- The fields of a table up to its closing brace, and what follows it. -/
def readFields : (fuel depth : Nat) → List Char → Option (List (Path × Value) × List Char)
  | 0, _, _ => none
  | fuel + 1, depth, cs => do
    match ← skipGap false cs with
    | '\x7d' :: rest => return ([], rest)
    | cs =>
      let (field, rest) ← readField fuel depth cs
      match ← skipGap false rest with
      | '\x7d' :: rest => return ([field], rest)
      | ',' :: rest =>
        let (fields, rest) ← readFields fuel depth rest
        return (field :: fields, rest)
      | _ => none

/-- A key, an equals sign and a value, and what follows them. -/
def readField : (fuel depth : Nat) → List Char → Option ((Path × Value) × List Char)
  | 0, _, _ => none
  | fuel + 1, depth, cs => do
    let (path, rest) ← readPath (fuel + 1) cs
    match rest with
    | '=' :: rest =>
      let (v, rest) ← readValue fuel depth (skipSpaces rest)
      return ((path, v), rest)
    | _ => none

end

/-- A statement at the front of a text, and what follows its line. -/
def readStatement (fuel : Nat) : List Char → Option (Statement × List Char)
  | '[' :: '[' :: cs => do
    let (path, rest) ← readPath fuel cs
    match rest with
    | ']' :: ']' :: rest => return (.arrayHeader path, ← endLine false rest)
    | _ => none
  | '[' :: cs => do
    let (path, rest) ← readPath fuel cs
    match rest with
    | ']' :: rest => return (.header path, ← endLine false rest)
    | _ => none
  | cs => do
    let ((path, v), rest) ← readField fuel nestingLimit cs
    return (.entry path v, ← endLine false rest)

/-- The statements of a text. -/
def readStatements : (fuel : Nat) → List Char → Option (List Statement)
  | 0, _ => none
  | fuel + 1, cs =>
    match skipGap false cs with
    | none => none
    | some [] => some []
    | some cs =>
      match readStatement fuel cs with
      | none => none
      | some (s, rest) => (readStatements fuel rest).map (s :: ·)

/-- The text without a byte order mark in front. -/
def dropMark : List Char → List Char
  | '\ufeff' :: cs => cs
  | cs => cs

/-- The entries of a configuration text. Every statement and every value takes up a character, so
the length of the text bounds the work. -/
def read? (cs : List Char) : Option Entries :=
  let cs := dropMark cs
  (readStatements (2 * cs.length + 2) cs).bind ofStatements

end Toml
end EfsControl
