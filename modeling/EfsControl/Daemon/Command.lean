/-
# Commands as the daemon reads them

The daemon splits what arrives into lines and each line into tokens: the
number of the command, if commands are numbered, the prefix, the subcommand
and the arguments. A line that is not of this form is passed over.

Key definitions: `ReceivedCommand`, `parseCommand`, `CommandReader`.
-/
import EfsControl.Command.Encode
import EfsControl.Lines

namespace EfsControl

/-- A command that has arrived. -/
structure ReceivedCommand where
  seq : Option UInt32
  commandPrefix : String
  subcommand : String
  args : List String
  /-- The line, without the byte that ended it. -/
  raw : String
  deriving DecidableEq

/-- The command that tokens make. -/
def commandOfTokens? (numbered : Bool) (raw : String) (tokens : List String) :
    Option ReceivedCommand :=
  match numbered, tokens with
  | true, number :: commandPrefix :: subcommand :: args =>
    (Text.readUInt32? number.toList).map fun seq => ⟨some seq, commandPrefix, subcommand, args, raw⟩
  | false, commandPrefix :: subcommand :: args => some ⟨none, commandPrefix, subcommand, args, raw⟩
  | _, _ => none

/-- The command in a line. -/
def parseCommand (numbered : Bool) (raw : String) : Option ReceivedCommand :=
  match tokenize raw with
  | .ok tokens => commandOfTokens? numbered raw tokens
  | .error _ => none

/-- The command in the bytes of a line. -/
def readCommand (numbered : Bool) (line : List UInt8) : Option ReceivedCommand :=
  parseCommand numbered (String.ofList (Utf8.decodeLossy line))

/-- The reading end of the daemon: the bytes that are no complete line yet. -/
structure CommandReader where
  partialLine : List UInt8 := []

namespace CommandReader

/-- The commands that some more bytes complete. -/
def feed (framing : Framing) (numbered : Bool) (r : CommandReader) (bytes : List UInt8) :
    CommandReader × List ReceivedCommand :=
  let (lines, rest) := splitLines framing.terminator (r.partialLine ++ bytes)
  (⟨rest⟩, lines.filterMap (readCommand numbered))

/-- The commands that pieces of any size bring, one after the other. -/
def feedAll (framing : Framing) (numbered : Bool) :
    CommandReader → List (List UInt8) → CommandReader × List ReceivedCommand
  | r, [] => (r, [])
  | r, piece :: pieces =>
    let (r, commands) := r.feed framing numbered piece
    let (r, more) := feedAll framing numbered r pieces
    (r, commands ++ more)

end CommandReader
end EfsControl
