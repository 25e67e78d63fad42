/-
# Records in JSON

A record is an object with declared fields, each of one kind. The fields may
come in any order and with undeclared ones among them; each comes once, and
only one with a default may be left out. A record may also be given as an
array of its fields in their order. The first fault in reading order counts:
a repeated field is noticed at its name, a missing one at the end. How texts
are read is left open for those that are looked at: names, and values of
declared fields.

Key definitions: `FieldKind`, `FieldValue`, `Field`, `readField`,
`readRecord`, `readDocument`.
-/
import EfsControl.Json.Reader
import EfsControl.Json.Value
import EfsControl.Password

namespace EfsControl
namespace Json

/-- What a field may hold. -/
inductive FieldKind
  | text
  | secret
  | flag
  /-- A whole number between two bounds. -/
  | number (least greatest : Int)
  deriving DecidableEq

/-- What a field holds. -/
inductive FieldValue
  | text (s : String)
  | secret (p : Password)
  | flag (b : Bool)
  | number (n : Int)
  deriving DecidableEq

/-- The value as JSON. -/
def FieldValue.toJson : FieldValue → Value
  | .text s => .text s.toList
  | .secret p => .text p.expose.toList
  | .flag b => .boolean b
  | .number n => .integer n

/-- A declared field. -/
structure Field where
  name : String
  kind : FieldKind
  /-- What it holds where it is left out. -/
  default? : Option FieldValue := none
  deriving DecidableEq

/-! ### Values of fields -/

section
variable (text : TextReader)

/-- A text, and what follows it. -/
def readTextValue (cs : List Char) : Except Fault (String × List Char) :=
  match skipBlanks cs with
  | [] => .error .truncated
  | '"' :: cs => (text cs).map fun (s, rest) => (String.ofList s, rest)
  | cs => .error (wrongValue text cs)

/-- A truth value, and what follows it. -/
def readFlag (cs : List Char) : Except Fault (Bool × List Char) :=
  match skipBlanks cs with
  | [] => .error .truncated
  | 't' :: cs => (readWord "rue".toList cs).map fun rest => (true, rest)
  | 'f' :: cs => (readWord "alse".toList cs).map fun rest => (false, rest)
  | cs => .error (wrongValue text cs)

/-- A whole number between two bounds, and what follows it. -/
def readInteger (least greatest : Int) (cs : List Char) : Except Fault (Int × List Char) :=
  match skipBlanks cs with
  | [] => .error .truncated
  | c :: cs =>
    if beginsNumber c then
      match readNumber (c :: cs) with
      | .error f => .error f
      | .ok (n, rest) =>
        match n.integer? with
        | some n => if least ≤ n && n ≤ greatest then .ok (n, rest) else .error .mismatched
        | none => .error .mismatched
    else .error (wrongValue text (c :: cs))

/-- A value of a kind, and what follows it. -/
def readField : FieldKind → List Char → Except Fault (FieldValue × List Char)
  | .text, cs => (readTextValue text cs).map fun (s, rest) => (.text s, rest)
  | .secret, cs => (readTextValue text cs).map fun (s, rest) => (.secret ⟨s⟩, rest)
  | .flag, cs => (readFlag text cs).map fun (b, rest) => (.flag b, rest)
  | .number least greatest, cs =>
    (readInteger text least greatest cs).map fun (n, rest) => (.number n, rest)

end

/-! ### Records -/

/-- The fields that have been read, by name. -/
abbrev Found := List (String × FieldValue)

/-- The values of all fields in their order, once every one is known. -/
def complete (fields : List Field) (found : Found) : Except Fault (List FieldValue) :=
  fields.mapM fun f =>
    match (found.lookup f.name).or f.default? with
    | some v => .ok v
    | none => .error .mismatched

/-- What follows the colon after a field's name. -/
def takeColon (cs : List Char) : Except Fault (List Char) :=
  match skipBlanks cs with
  | [] => .error .truncated
  | ':' :: rest => .ok rest
  | _ => .error .malformed

/-- A field after its name, together with those found before, and what follows it. -/
def readNamed (text : TextReader) (fields : List Field) (found : Found) (name : String)
    (cs : List Char) : Except Fault (Found × List Char) :=
  match fields.find? (·.name == name) with
  | none => do
    let rest ← takeColon cs
    return (found, ← skipAny rest)
  | some f =>
    if (found.lookup name).isSome then .error .mismatched
    else do
      let rest ← takeColon cs
      let (v, rest) ← readField text f.kind rest
      return ((name, v) :: found, rest)

/-- The fields of an object from the name of one of them on, and what follows the closing brace. -/
def readMembers (text : TextReader) (fields : List Field) :
    (fuel : Nat) → Found → List Char → Except Fault (List FieldValue × List Char)
  | 0, _, _ => .error .truncated
  | fuel + 1, found, cs => do
    match skipBlanks cs with
    | [] => .error .truncated
    | '"' :: cs =>
      let (name, rest) ← text cs
      let (found, rest) ← readNamed text fields found (String.ofList name) rest
      match skipBlanks rest with
      | [] => .error .truncated
      | '\x7d' :: rest => return (← complete fields found, rest)
      | ',' :: rest => readMembers text fields fuel found rest
      | _ => .error .malformed
    | _ => .error .malformed

/-- What follows the closing bracket of an array that has no more members. -/
def closeArray (cs : List Char) : Except Fault (List Char) :=
  match skipBlanks cs with
  | [] => .error .truncated
  | ']' :: rest => .ok rest
  | _ => .error .malformed

/-- The fields of a record given as the members of an array, and what follows the last of them. -/
def readInOrder (text : TextReader) : (isFirst : Bool) → List Field → List Char →
    Except Fault (List FieldValue × List Char)
  | _, [], cs => .ok ([], cs)
  | isFirst, f :: fs, cs =>
    match skipBlanks cs, isFirst with
    | [], _ => .error .truncated
    | ']' :: rest, _ =>
      match f.default? with
      | some v => (readInOrder text isFirst fs (']' :: rest)).map fun (vs, rest) => (v :: vs, rest)
      | none => .error .mismatched
    | c :: rest, true => do
      let (v, rest) ← readField text f.kind (c :: rest)
      let (vs, rest) ← readInOrder text false fs rest
      return (v :: vs, rest)
    | ',' :: rest, false => do
      match skipBlanks rest with
      | [] => .error .truncated
      | ']' :: _ => .error .malformed
      | rest =>
        let (v, rest) ← readField text f.kind rest
        let (vs, rest) ← readInOrder text false fs rest
        return (v :: vs, rest)
    | _ :: _, false => .error .malformed

/-- The values of a record's fields, and what follows the record. -/
def readRecord (text : TextReader) (fields : List Field) (cs : List Char) :
    Except Fault (List FieldValue × List Char) :=
  match skipBlanks cs with
  | [] => .error .truncated
  | '\x7b' :: cs =>
    match skipBlanks cs with
    | '\x7d' :: rest => (complete fields []).map fun vs => (vs, rest)
    | cs => readMembers text fields (cs.length + 1) [] cs
  | '[' :: cs => do
    let (vs, rest) ← readInOrder text true fields cs
    return (vs, ← closeArray rest)
  | cs => .error (wrongValue text cs)

/-- What a reader makes of a whole text: only blanks may follow. -/
def readDocument (read : List Char → Except Fault (α × List Char)) (cs : List Char) :
    Except Fault α := do
  let (a, rest) ← read cs
  if (skipBlanks rest).isEmpty then return a else .error .malformed

/-- A record as JSON. -/
def writeRecord (fields : List Field) (values : List FieldValue) : Value :=
  .object ((fields.zip values).map fun (f, v) => (f.name.toList, v.toJson))

end Json
end EfsControl
