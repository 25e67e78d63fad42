/-
# Writing a command line

A command is `[<number> ]<prefix> <subcommand> <argument>…`. An argument that
is empty or holds a space or a tab is written between quotes, and every quote
and backslash in it has a backslash in front. NUL, line feed and carriage
return end a line on one of the two framings and cannot be written at all.
The same command has a second text in which a fixed mark stands for each
secret argument; only that one is logged.

Key definitions: `Arg`, `escape`, `EncodedCommand`, `encode`, `Framing`,
`EncodedCommand.frame`.
-/
import EfsControl.Command.Token
import EfsControl.Password
import EfsControl.Text.Blank
import EfsControl.Text.Decimal
import EfsControl.Text.Quoted
import EfsControl.Text.Utf8

namespace EfsControl

/-- How lines are ended on the daemon's socket. -/
inductive Framing
  | nul
  | newline
  deriving DecidableEq, Repr, Inhabited

/-- The byte that ends a line. -/
def Framing.terminator : Framing → UInt8
  | .nul => 0
  | .newline => 10

/-- One argument of a command. -/
inductive Arg
  | text (s : String)
  | int (n : Int)
  | secret (p : Password)
  deriving DecidableEq

namespace Arg

/-- Whether the argument is kept out of logs. -/
def isSecret : Arg → Bool
  | .secret _ => true
  | _ => false

/-- The shown form of an argument. -/
def describe : Arg → String
  | .text s => "Str(" ++ Text.quoted s ++ ")"
  | .int n => "Int(" ++ String.ofList (Text.intDigits n) ++ ")"
  | .secret _ => "Secret(" ++ Password.redacted ++ ")"

/-- The characters of an argument before escaping. -/
def chars : Arg → List Char
  | .text s => s.toList
  | .int n => Text.intDigits n
  | .secret p => p.expose.toList

end Arg

/-- Why a command cannot be written. -/
inductive EncodeError
  | forbiddenCharacter (index : Nat) (found : Char)
  | invalidCommandWord (word : String)
  deriving DecidableEq

/-- The wording of the error. -/
def EncodeError.message : EncodeError → String
  | .forbiddenCharacter index found =>
    "argument " ++ toString index ++ " contains a character that cannot be sent ("
      ++ Text.quotedChar found ++ ")"
  | .invalidCommandWord word =>
    "command word " ++ Text.quoted word ++ " must be a non-empty single token"

namespace Command

/-- The characters that no argument may hold. -/
def isForbidden (c : Char) : Bool := c == '\x00' || c == '\n' || c == '\r'

/-- Whether an argument is written between quotes. -/
def needsQuotes (cs : List Char) : Bool := cs.isEmpty || cs.any Token.isSeparator

/-- A character inside an argument, with a backslash in front of a quote or a backslash. -/
def escapeChar (c : Char) : List Char := if c == '\\' || c == '"' then ['\\', c] else [c]

/-- The escaped form of an argument without forbidden characters. -/
def escaped (cs : List Char) : List Char :=
  if needsQuotes cs then '"' :: cs.flatMap escapeChar ++ ['"'] else cs.flatMap escapeChar

/-- The escaped form of the argument at `index`, or the first forbidden character in it. -/
def escape (index : Nat) (cs : List Char) : Except EncodeError (List Char) :=
  match cs.find? isForbidden with
  | some found => .error (.forbiddenCharacter index found)
  | none => .ok (escaped cs)

/-- Whether a text can be a command word: one non-empty token that needs no escaping. -/
def isWord (cs : List Char) : Bool :=
  !cs.isEmpty && !cs.any fun c => Text.isBlank c || c == '"' || c == '\\'

/-- The two texts of the argument at `index`: on the wire and in the log. -/
def writeArg (index : Nat) : Arg → Except EncodeError (List Char × List Char)
  | .text s => (escape index s.toList).map fun e => (e, e)
  | .int n => .ok (Text.intDigits n, Text.intDigits n)
  | .secret p => (escape index p.expose.toList).map fun e => (e, Password.redacted.toList)

/-- The two texts of the arguments from `index` on, each with a space in front. -/
def writeArgs : Nat → List Arg → Except EncodeError (List Char × List Char)
  | _, [] => .ok ([], [])
  | index, a :: rest => do
    let (wire, shown) ← writeArg index a
    let (wires, showns) ← writeArgs (index + 1) rest
    return (' ' :: wire ++ wires, ' ' :: shown ++ showns)

/-- The part of a command in front of its arguments. -/
def head (seq : Option UInt32) (commandPrefix subcommand : List Char) : List Char :=
  (match seq with
    | some n => Text.digits n.toNat ++ [' ']
    | none => []) ++ commandPrefix ++ ' ' :: subcommand

end Command

/-- A command as it is sent and as it is logged, both without the byte that ends it. -/
structure EncodedCommand where
  wire : String
  loggable : String
  deriving DecidableEq

/-- The command as text. The words are checked before the arguments, the prefix first. -/
def encode (seq : Option UInt32) (commandPrefix subcommand : String) (args : List Arg) :
    Except EncodeError EncodedCommand :=
  if !Command.isWord commandPrefix.toList then .error (.invalidCommandWord commandPrefix)
  else if !Command.isWord subcommand.toList then .error (.invalidCommandWord subcommand)
  else
    let head := Command.head seq commandPrefix.toList subcommand.toList
    (Command.writeArgs 0 args).map fun (wire, shown) =>
      ⟨String.ofList (head ++ wire), String.ofList (head ++ shown)⟩

namespace EncodedCommand

/-- The bytes of the command and the byte that ends it. -/
def frame (c : EncodedCommand) (framing : Framing) : List UInt8 :=
  Utf8.ofString c.wire ++ [framing.terminator]

/-- The shown form, which holds the logged text alone. -/
def describe (c : EncodedCommand) : String := "EncodedCommand(" ++ Text.quoted c.loggable ++ ")"

end EncodedCommand

example :
    (encode (some 7) "efs" "create" [.text "/a b", .secret ⟨"p\"\\"⟩, .int (-3)]).toOption =
      some ⟨"7 efs create \"/a b\" p\\\"\\\\ -3", "7 efs create \"/a b\" [REDACTED] -3"⟩ := by
  decide +kernel

end EfsControl
