/-
# Why an exchange with the daemon failed

One command and its reply are an exchange. It can fail before the command is
sent, on the way, or because the daemon says so; the connection itself can
fail too.

Key definitions: `ExchangeError`, `ExchangeError.message`,
`ExchangeError.isBusy`.
-/
import EfsControl.Command.Encode
import EfsControl.Text.Duration

namespace EfsControl

/-- A failed exchange, or the end of a connection. -/
inductive ExchangeError
  | notConnected
  | connectionLost
  /-- The daemon refused the command with a status of its own. -/
  | daemon (code : Nat) (message : String)
  | timeout (limit : Duration)
  /-- A command without a number went unanswered, so later replies cannot be told apart. -/
  | outOfSync
  | connect (path cause : String)
  | encode (e : EncodeError)
  | io (cause : String)
  deriving DecidableEq

namespace ExchangeError

/-- The wording of the error. -/
def message : ExchangeError → String
  | notConnected => "not connected to the daemon"
  | connectionLost => "daemon connection lost"
  | daemon code message =>
    "daemon failed the command with status " ++ toString code ++ ": " ++ message
  | timeout limit => "no reply from the daemon within " ++ limit.text
  | outOfSync => "lost track of which reply answers which command"
  | connect path cause => "failed to connect to daemon socket at " ++ path ++ ": " ++ cause
  | encode e => e.message
  | io cause => "IO error: " ++ cause

/-- The daemon's status, where the daemon itself refused. -/
def code? : ExchangeError → Option Nat
  | daemon code _ => some code
  | _ => none

/-- The status of a storage that is busy. -/
def busyStatus : Nat := 405

/-- Whether the daemon refused because the storage is busy. -/
def isBusy (e : ExchangeError) : Bool := e.code? == some busyStatus

/-- The system's text where a path names nothing. -/
def noSuchFile : String := "No such file or directory (os error 2)"

/-- The system's text where nobody listens. -/
def connectionRefused : String := "Connection refused (os error 111)"

/-- The system's text where the other side of a connection is gone. -/
def brokenPipe : String := "Broken pipe (os error 32)"

end ExchangeError
end EfsControl
