/-
# Reading an answer

A client gets the answer to its request as bytes that end when the other side
closes the connection. An answer has a status line, header lines, an empty
line and a body. Whether the body is cut into chunks, has an announced length
or goes on to the end of the bytes follows from the head. An answer that says
that another one follows is passed over.

Key definitions: `Http.Answer`, `Http.Head`, `Http.extent?`,
`Http.readAnswer?`.
-/
import EfsControl.Http.MediaType
import EfsControl.Json.Text
import EfsControl.Lines
import EfsControl.Text.Blank
import EfsControl.Text.Decimal

namespace EfsControl
namespace Http

/-- What a client looks at in an answer. -/
structure Answer where
  status : Nat
  body : List UInt8
  deriving DecidableEq

/-- The part of an answer in front of its body. -/
structure Head where
  /-- Whether the answer is of the first version, which knows no chunks. -/
  isFirstVersion : Bool
  status : Nat
  /-- The names, in lower case, and the values of the headers. -/
  headers : List (List Char × List Char)
  deriving DecidableEq

/-! ### The head -/

/-- The line feed, which ends a line. -/
def lineFeed : UInt8 := 10

/-- The carriage return, which may be in front of a line feed. -/
def carriageReturn : UInt8 := 13

/-- Bytes as characters, one for one. -/
def asText (bytes : List UInt8) : List Char := bytes.map fun b => Char.ofNat b.toNat

/-- A line without the carriage return at its end. -/
def dropReturn (line : List UInt8) : List UInt8 :=
  if line.getLast? = some carriageReturn then line.dropLast else line

/-- The first line as text, and the bytes after it. -/
def takeTextLine? (bytes : List UInt8) : Option (List Char × List UInt8) :=
  (takeLine? lineFeed bytes).map fun (line, rest) => (asText (dropReturn line), rest)

/-- The bytes after the empty lines at the front. -/
def skipEmptyLines : List UInt8 → List UInt8
  | [] => []
  | [b] => if b = lineFeed then [] else [b]
  | b :: c :: bs =>
    if b = lineFeed then skipEmptyLines (c :: bs)
    else if b = carriageReturn && c = lineFeed then skipEmptyLines bs
    else b :: c :: bs

/-- Whether a character may be in the value of a header. -/
def isValueChar (c : Char) : Bool := c == '\t' || (' ' ≤ c && c != '\x7f')

/-- The version and the status in a status line. -/
def readStatusLine? (line : List Char) : Option (Bool × Nat) :=
  match line with
  | 'H' :: 'T' :: 'T' :: 'P' :: '/' :: '1' :: '.' :: version :: ' ' :: a :: b :: c :: rest =>
    let phraseFits := match rest with
      | [] => true
      | ' ' :: phrase => phrase.all isValueChar
      | _ => false
    match Text.readNat? [a, b, c] with
    | some status =>
      if (version = '0' || version = '1') && 100 ≤ status && phraseFits then
        some (version = '0', status)
      else none
    | none => none
  | _ => none

/-- Whether a character is a space or a tab. -/
def isSpacing (c : Char) : Bool := c == ' ' || c == '\t'

/-- The name and the value in a header line. -/
def readHeader? (line : List Char) : Option (List Char × List Char) :=
  let (name, rest) := line.span isTokenChar
  match name, rest with
  | _ :: _, ':' :: value =>
    if value.all isValueChar then
      some (name.map Char.toLower, Text.dropEndWhile isSpacing (value.dropWhile isSpacing))
    else none
  | _, _ => none

/-- The headers up to the empty line, and the bytes after it. There may be only so many. -/
def readHeaders? : (limit : Nat) → List UInt8 → Option (List (List Char × List Char) × List UInt8)
  | 0, _ => none
  | limit + 1, bytes =>
    match takeTextLine? bytes with
    | none => none
    | some ([], rest) => some ([], rest)
    | some (line, rest) => do
      let header ← readHeader? line
      let (headers, rest) ← readHeaders? limit rest
      return (header :: headers, rest)

/-- How many headers an answer may have. -/
def headerLimit : Nat := 100

/-- The head of an answer, and the bytes after it. -/
def readHead? (bytes : List UInt8) : Option (Head × List UInt8) := do
  let (line, rest) ← takeTextLine? (skipEmptyLines bytes)
  let (isFirstVersion, status) ← readStatusLine? line
  let (headers, rest) ← readHeaders? (headerLimit + 1) rest
  return (⟨isFirstVersion, status, headers⟩, rest)

/-! ### How far the body goes -/

/-- Where a body ends. -/
inductive Extent
  /-- There is none. -/
  | empty
  /-- It has an announced length. -/
  | sized (length : Nat)
  | chunked
  /-- It goes on to the end of the bytes. -/
  | unbounded
  deriving DecidableEq

/-- The pieces of a text between commas. -/
def splitCommas : List Char → List (List Char)
  | [] => [[]]
  | c :: cs =>
    if c = ',' then [] :: splitCommas cs
    else
      match splitCommas cs with
      | [] => [[c]]
      | piece :: pieces => (c :: piece) :: pieces

/-- The longest body that can be announced. -/
def lengthLimit : Nat := UInt64.size - 3

/-- The length that headers announce, where they all agree. -/
def announcedLength? (values : List (List Char)) : Option Nat :=
  match (values.flatMap splitCommas).map fun piece => Text.readNat? (Text.trim piece) with
  | some n :: others => if others.all (· == some n) && n ≤ lengthLimit then some n else none
  | _ => none

/-- The values of the headers with a name. -/
def Head.values (h : Head) (name : String) : List (List Char) :=
  h.headers.filterMap fun (n, value) => if n = name.toList then some value else none

/-- Whether the last coding that is named is the one by chunks. -/
def endsInChunked (values : List (List Char)) : Bool :=
  ((values.getLast?.bind fun v => (splitCommas v).getLast?).map fun coding =>
    (Text.trim coding).map Char.toLower) == some "chunked".toList

/-- Where the body of an answer ends, as its head has it. -/
def extent? (h : Head) : Option Extent :=
  if h.status = 101 || h.status = 204 || h.status = 304 then some .empty
  else
    match h.values "transfer-encoding", h.values "content-length" with
    | [], [] => some .unbounded
    | [], lengths => (announcedLength? lengths).map .sized
    | codings, _ =>
      if h.isFirstVersion then none
      else some (if endsInChunked codings then .chunked else .unbounded)

/-! ### The body -/

/-- The length in the first line of a chunk. What follows a semicolon means nothing. -/
def readChunkLength? (line : List Char) : Option Nat :=
  let (digits, rest) := line.span fun c => (Json.hexValue? c).isSome
  let fits := match rest.dropWhile isSpacing with
    | [] => true
    | ';' :: extension => !extension.contains '\r'
    | _ => false
  let length := digits.foldl (fun n c => n * 16 + (Json.hexValue? c).getD 0) 0
  if !digits.isEmpty && fits && length < UInt64.size then some length else none

/-- The line of a chunk, which ends in a carriage return and a line feed. -/
def takeChunkLine? (bytes : List UInt8) : Option (List Char × List UInt8) :=
  match takeLine? lineFeed bytes with
  | some (line, rest) =>
    if line.getLast? = some carriageReturn then some (asText line.dropLast, rest) else none
  | none => none

/-- A body in chunks. The headers that may follow the last chunk mean nothing. -/
def readChunks? : (fuel : Nat) → List UInt8 → Option (List UInt8)
  | 0, _ => none
  | fuel + 1, bytes => do
    let (line, rest) ← takeChunkLine? bytes
    let length ← readChunkLength? line
    if length = 0 then
      let _ ← readHeaders? (headerLimit + 1) rest
      return []
    else
      match rest.drop length with
      | a :: b :: others =>
        if a = carriageReturn && b = lineFeed then
          return rest.take length ++ (← readChunks? fuel others)
        else none
      | _ => none

/-- A body of some extent at the front of the bytes. -/
def readBody? (bytes : List UInt8) : Extent → Option (List UInt8)
  | .empty => some []
  | .sized length => if length ≤ bytes.length then some (bytes.take length) else none
  | .chunked => readChunks? (bytes.length + 1) bytes
  | .unbounded => some bytes

/-! ### All together -/

/-- Whether a status says that the answer proper follows. -/
def isInterim (status : Nat) : Bool := 100 ≤ status && status < 200 && status != 101

/-- The answer after those that are only interim. -/
def readAnswerWithin? : (fuel : Nat) → List UInt8 → Option Answer
  | 0, _ => none
  | fuel + 1, bytes => do
    let (head, rest) ← readHead? bytes
    if isInterim head.status then readAnswerWithin? fuel rest
    else
      let body ← readBody? rest (← extent? head)
      return ⟨head.status, body⟩

/-- The answer in the bytes that have come until the connection was closed, if there is a complete
one. -/
def readAnswer? (bytes : List UInt8) : Option Answer := readAnswerWithin? (bytes.length + 1) bytes

example : readAnswer? (Utf8.ofString "HTTP/1.1 200 OK\r\ncontent-length: 2\r\n\r\n\x7b\x7d") =
    some ⟨200, [123, 125]⟩ := by decide +kernel

example : readAnswer? (Utf8.ofString
    "HTTP/1.1 200 OK\r\ntransfer-encoding: chunked\r\n\r\n2\r\n\x7b\x7d\r\n0\r\n\r\n") =
    some ⟨200, [123, 125]⟩ := by decide +kernel

example : readAnswer? (Utf8.ofString "HTTP/1.1 200 OK\r\ncontent-length: 9\r\n\r\nshort") = none := by
  decide +kernel

end Http
end EfsControl
