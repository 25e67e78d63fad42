/-
# Media types

A media type is a type, a subtype and, after semicolons, parameters. What
follows the last plus sign of the subtype is its suffix. Letter case does not
matter.

Key definitions: `MediaType`, `MediaType.parse?`, `MediaType.isJson`.
-/
namespace EfsControl
namespace Http

/-- The marks that may be in a name besides letters and digits. -/
def tokenMarks : List Char :=
  ['!', '#', '$', '%', '&', '\'', '*', '+', '-', '.', '^', '_', '\x60', '|', '~']

/-- Whether a character may be in a name. -/
def isTokenChar (c : Char) : Bool := c.isAlphanum || tokenMarks.contains c

/-- Whether a character may be between quotes. -/
def isQuotable (c : Char) : Bool := ' ' ≤ c && c ≤ '~'

/-- A media type in lower case, without its parameters. -/
structure MediaType where
  type : List Char
  subtype : List Char
  suffix : Option (List Char) := none
  deriving DecidableEq

namespace MediaType

/-- How far a list of parameters has been read. -/
inductive ParameterState
  /-- Before a name. -/
  | before
  | name
  /-- After the equals sign. -/
  | start
  | value
  /-- After an opening quote. -/
  | opened
  | quoted
  /-- After a closing quote. -/
  | closed
  deriving DecidableEq

namespace ParameterState

/-- The state after one more character, if it may come there. -/
def next? : ParameterState → Char → Option ParameterState
  | before, c => if c = ' ' then some before else if isTokenChar c then some name else none
  | name, c => if c = '=' then some start else if isTokenChar c then some name else none
  | start, c => if c = '"' then some opened else if isTokenChar c then some value else none
  | value, c => if c = ';' then some before else if isTokenChar c then some value else none
  | opened, c => if isQuotable c then some quoted else none
  | quoted, c => if c = '"' then some closed else if isQuotable c then some quoted else none
  | closed, c => if c = ';' then some before else if c = ' ' then some closed else none

/-- Whether the list may end in a state. -/
def isFinal : ParameterState → Bool
  | before | start | value | closed => true
  | name | opened | quoted => false

end ParameterState

/-- Whether a text is a list of parameters, without the semicolon in front of it. -/
def areParameters (cs : List Char) : Bool :=
  (cs.foldlM ParameterState.next? .before).any ParameterState.isFinal

/-- A subtype and its suffix: the last plus sign divides them, unless it is the first character. -/
def splitSuffix : List Char → List Char × Option (List Char)
  | [] => ([], none)
  | c :: cs =>
    let suffix := (cs.reverse.takeWhile (· != '+')).reverse
    if cs.contains '+' then (c :: cs.take (cs.length - suffix.length - 1), some suffix)
    else (c :: cs, none)

/-- The media type that a text describes. -/
def parse? (s : String) : Option MediaType :=
  let (type, rest) := s.toList.span isTokenChar
  match type, rest with
  | _ :: _, '/' :: rest =>
    let (name, rest) := rest.span isTokenChar
    let (subtype, suffix) := splitSuffix (name.map Char.toLower)
    let result : MediaType := ⟨type.map Char.toLower, subtype, suffix⟩
    match name, rest with
    | _, [] => some result
    | _ :: _, ';' :: parameters => if areParameters parameters then some result else none
    | _, _ => none
  | _, _ => none

/-- Whether a media type is one of JSON. -/
def isJson (m : MediaType) : Bool :=
  m.type == "application".toList &&
    (m.subtype == "json".toList || m.suffix == some "json".toList)

end MediaType

/-- Whether a header announces a body of JSON. -/
def announcesJson (contentType : Option String) : Bool :=
  (contentType.bind MediaType.parse?).any MediaType.isJson

example : announcesJson (some "Application/JSON; charset=utf-8") = true := by decide +kernel
example : announcesJson (some "application/vnd.api+json") = true := by decide +kernel
example : announcesJson (some "text/x+json") = false := by decide +kernel
example : announcesJson (some "application/ json") = false := by decide +kernel
example : announcesJson none = false := by decide +kernel

end Http
end EfsControl
