/-
# Lines from the daemon

A line begins with a status code of three digits. The reply to a command has
the number of the command next, when commands are numbered; an event, whose
code is in the six hundreds, never has one. The rest of the line is the
message. Words are split at single spaces.

Key definitions: `ResponseClass`, `Reply`, `Event`, `Line`, `parseLine`,
`replyLine`.
-/
import EfsControl.Command.Token
import EfsControl.Text.Decimal
import EfsControl.Text.Quoted

namespace EfsControl

/-- What a status code says about a line. -/
inductive ResponseClass
  /-- More lines follow for the same command. -/
  | continuing
  /-- The command is done. -/
  | ok
  /-- The command failed. -/
  | failed
  /-- An event that no command asked for. -/
  | unsolicited
  deriving DecidableEq, Repr

/-- The class of a status code: the hundreds decide, and some have none. -/
def ResponseClass.ofCode? (code : Nat) : Option ResponseClass :=
  match code / 100 with
  | 1 => some .continuing
  | 2 => some .ok
  | 4 | 5 => some .failed
  | 6 => some .unsolicited
  | _ => none

/-- The name of a class. -/
def ResponseClass.name : ResponseClass → String
  | .continuing => "Continuing"
  | .ok => "Ok"
  | .failed => "Failed"
  | .unsolicited => "Unsolicited"

/-- An answer of the daemon to a command. -/
structure Reply where
  code : Nat
  seq : Option UInt32
  message : String
  /-- The messages of the lines that came before the final one. -/
  continuations : List String := []
  deriving DecidableEq

namespace Reply

/-- The class of the reply's code. -/
def class? (r : Reply) : Option ResponseClass := ResponseClass.ofCode? r.code

/-- Whether the command is over with this line. -/
def isFinal (r : Reply) : Bool := r.class? != some .continuing

/-- Whether the daemon says that the command failed. -/
def isFailure (r : Reply) : Bool := r.class? == some .failed

/-- The tokens of the message. -/
def cooked (r : Reply) : Except TokenError (List String) := tokenize r.message

end Reply

/-- Something the daemon reports on its own. -/
structure Event where
  code : Nat
  message : String
  /-- The whole line. -/
  raw : String
  deriving DecidableEq

/-- The tokens of the event's message. -/
def Event.cooked (e : Event) : Except TokenError (List String) := tokenize e.message

/-- A line that was understood. -/
inductive Line
  | reply (r : Reply)
  | event (e : Event)
  deriving DecidableEq

/-- Why a line was not understood. -/
inductive LineError
  | invalidCode (raw : String)
  | unknownClass (code : Nat)
  | invalidSequence (raw : String)
  deriving DecidableEq

/-- The wording of the error. -/
def LineError.message : LineError → String
  | .invalidCode raw => "missing or invalid status code in " ++ Text.quoted raw
  | .unknownClass code => "status code " ++ toString code ++ " is outside every known class"
  | .invalidSequence raw => "missing or invalid sequence number in " ++ Text.quoted raw

namespace Line

/-- The text before the first space and the text after it. -/
def splitWord (cs : List Char) : List Char × List Char :=
  (cs.takeWhile (· != ' '), (cs.dropWhile (· != ' ')).drop 1)

/-- The status code that a word of three characters gives. -/
def readCode? (word : List Char) : Option Nat :=
  if word.length = 3 then Text.readUpTo? (UInt16.size - 1) word else none

end Line

/-- A received line, without the byte that ended it. -/
def parseLine (raw : String) (numbered : Bool) : Except LineError Line :=
  let (word, rest) := Line.splitWord raw.toList
  match Line.readCode? word with
  | none => .error (.invalidCode raw)
  | some code =>
    match ResponseClass.ofCode? code with
    | none => .error (.unknownClass code)
    | some .unsolicited => .ok (.event ⟨code, String.ofList rest, raw⟩)
    | some _ =>
      if numbered then
        let (number, message) := Line.splitWord rest
        match Text.readUInt32? number with
        | none => .error (.invalidSequence raw)
        | some seq => .ok (.reply ⟨code, some seq, String.ofList message, []⟩)
      else .ok (.reply ⟨code, none, String.ofList rest, []⟩)

/-- A line as the daemon writes it, without the byte that ends it: the code, the number of the
command if there is one, and the message. -/
def replyLine (code : Nat) (seq : Option UInt32) (message : String) : String :=
  toString code ++ " " ++
    (match seq with
      | some n => toString n.toNat ++ " "
      | none => "") ++ message

example : (parseLine "200 12 a b" true).toOption = some (.reply ⟨200, some 12, "a b", []⟩) := by
  decide +kernel

example : (parseLine "650 12 a" true).toOption = some (.event ⟨650, "12 a", "650 12 a"⟩) := by
  decide +kernel

end EfsControl
