/-
# Log entries

What the service logs about the daemon's connection, the commands and their
results, and about what it is told of connections and events. A line of the
log is a level, a fixed text and the values that belong to it. A command is
logged by the text that hides its secrets.

Key definitions: `LogEntry`, `LogEntry.fields`, `LogEntry.fullLine`.
-/
import EfsControl.ExchangeError
import EfsControl.Outcome
import EfsControl.Reply

namespace EfsControl

/-- How much a log entry matters. -/
inductive LogLevel
  | debug
  | info
  | warn
  deriving DecidableEq

/-- The name of a level. -/
def LogLevel.name : LogLevel → String
  | .debug => "DEBUG"
  | .info => "INFO"
  | .warn => "WARN"

/-- One entry of the log. -/
inductive LogEntry
  | started (socket : String)
  | connected (socket : String)
  | stopped
  | connectionEnded (e : ExchangeError)
  | sent (command : EncodedCommand)
  | writeFailed (cause subcommand : String)
  | timedOut (subcommand : String) (seq : Option UInt32) (limit : Duration)
  /-- The answer to a command took its time. -/
  | slow (subcommand : String) (elapsed : Duration)
  | received (reply : Reply)
  | event (e : Event)
  | unhandledEvent (e : Event)
  | malformedLine (e : LineError)
  | unmatched (code : Nat) (seq : Option UInt32)
  | discarded (raw : String)
  | droppedStale (code : Nat)
  | callerGone
  | commandFailed (e : ExchangeError)
  | unparseable (reply : Reply)
  | finished (subcommand : String) (outcome : Outcome)
  /-- The service has been told of a connection. -/
  | greeted
  /-- The service has been told of an event. -/
  | noticed (e : Event)
  deriving DecidableEq

namespace LogEntry

/-- The level of an entry. -/
def level : LogEntry → LogLevel
  | started _ | connected _ | stopped | greeted | noticed _ => .info
  | connectionEnded _ | writeFailed .. | timedOut .. | slow .. | malformedLine _ | unmatched ..
  | commandFailed _ | unparseable _ => .warn
  | _ => .debug

/-- The fixed text of an entry. -/
def text : LogEntry → String
  | started _ => "daemon connector started"
  | connected _ => "connected to daemon"
  | stopped => "daemon connector stopped"
  | connectionEnded _ => "daemon connection ended"
  | sent _ => "SND ->"
  | writeFailed .. => "failed to write command"
  | timedOut .. => "daemon did not reply in time"
  | slow .. => "slow daemon command"
  | received _ => "RCV <-"
  | event _ => "daemon event"
  | unhandledEvent _ => "unhandled daemon event"
  | malformedLine _ => "malformed line from daemon"
  | unmatched .. => "reply matches no pending command"
  | discarded _ => "discarded unmatched reply"
  | droppedStale _ => "dropping reply of abandoned command"
  | callerGone => "caller dropped before its reply arrived"
  | commandFailed _ => "daemon command failed"
  | unparseable _ => "unparseable daemon reply"
  | finished .. => "operation finished"
  | greeted => "efs-server connected"
  | noticed _ => "efs-server event"

/-- A number that may be absent. -/
def optionText : Option UInt32 → String
  | some n => "Some(" ++ toString n.toNat ++ ")"
  | none => "None"

/-- The values of an entry, by name. -/
def fields : LogEntry → List (String × String)
  | stopped | callerGone | greeted => []
  | started socket | connected socket => [("socket", socket)]
  | connectionEnded e | commandFailed e => [("error", e.message)]
  | sent command => [("cmd", command.loggable)]
  | writeFailed cause subcommand => [("error", cause), ("subcommand", subcommand)]
  | timedOut subcommand seq limit =>
    [("subcommand", subcommand), ("seq", optionText seq), ("timeout", limit.text)]
  | slow subcommand elapsed =>
    [("subcommand", subcommand), ("elapsed_ms", toString (UInt64.ofNat elapsed.millis).toNat)]
  | received reply =>
    [("code", toString reply.code), ("seq", optionText reply.seq), ("message", reply.message)]
  | event e | noticed e => [("code", toString e.code), ("message", e.message)]
  | unhandledEvent e => [("raw", e.raw)]
  | malformedLine e => [("error", e.message)]
  | unmatched code seq => [("code", toString code), ("seq", optionText seq)]
  | discarded raw => [("raw", raw)]
  | droppedStale code => [("code", toString code)]
  | unparseable reply => [("code", toString reply.code), ("message", reply.message)]
  | finished subcommand outcome =>
    [("subcommand", subcommand), ("outcome", outcome.describe)]

/-- A line of the log with some values. -/
def lineWith (e : LogEntry) (fields : List (String × String)) : String :=
  String.intercalate " " (e.level.name :: e.text :: fields.map fun (k, v) => k ++ "=" ++ v)

/-- The entry as a line of the log. -/
def fullLine (e : LogEntry) : String := e.lineWith e.fields

/-- The line without the path of the socket, which is the same all the time. -/
def line (e : LogEntry) : String := e.lineWith (e.fields.filter (·.1 != "socket"))

end LogEntry
end EfsControl
