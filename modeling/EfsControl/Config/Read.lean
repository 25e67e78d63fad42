/-
# Reading a configuration

Each of the three tables, and each setting in it, may be left out; the default
of the table or of the setting then stands. Keys that are no setting are
ignored. A table may also be given as an array of its settings in order, and
the framing as a table whose one key is its name.

Key definitions: `fields?`, `AppConfig.ofEntries?`, `AppConfig.parse`,
`AppConfig.load`.
-/
import EfsControl.Config.Write
import EfsControl.ExchangeError
import EfsControl.Toml.Document

namespace EfsControl
namespace AppConfig

open Toml (Value)

/-- The settings that a value gives, by name: those of a table, or the members of an array in the
order of the names. A date gives none. -/
def fields? (names : List String) : Value → Option (String → Option Value)
  | .table _ entries =>
    if entries.all fun (k, v) => (names.map String.toList).contains k || Toml.representable v then
      some fun name => Toml.lookup name.toList entries
    else none
  | .array _ items => some fun name => Toml.lookup name.toList ((names.map String.toList).zip items)
  | .moment => some fun _ => none
  | _ => none

/-- A setting, or its default where it is left out. -/
def setting (read : Value → Option α) (default : α) : Option Value → Option α
  | none => some default
  | some v => read v

/-- A text. -/
def readString : Value → Option String
  | .text s => some (String.ofList s)
  | _ => none

/-- A truth value. -/
def readBool : Value → Option Bool
  | .boolean b => some b
  | _ => none

/-- A whole number of 64 bits without a sign. -/
def readUInt64 : Value → Option UInt64
  | .integer n => if 0 ≤ n && n < UInt64.size then some (UInt64.ofNat n.toNat) else none
  | _ => none

/-- The framing with a name. -/
def framingNamed? (name : List Char) : Option Framing :=
  if name = Framing.nul.word.toList then some .nul
  else if name = Framing.newline.word.toList then some .newline
  else none

/-- A framing: its name, or a table that gives nothing but its name. -/
def readFraming : Value → Option Framing
  | .text name => framingNamed? name
  | .table _ [(name, .table _ [])] => framingNamed? name
  | .table _ [(name, .array _ [])] => framingNamed? name
  | _ => none

/-- The settings of the connection. -/
def readDaemon (v : Value) : Option DaemonConfig := do
  let get ← fields? ["socket_path", "command_prefix", "framing", "sequence_numbers",
    "command_timeout_secs", "reconnect_delay_ms", "slow_command_warn_ms", "event_buffer"] v
  return {
    socketPath := ← setting readString Default.daemonSocketPath (get "socket_path")
    commandPrefix := ← setting readString Default.commandPrefix (get "command_prefix")
    framing := ← setting readFraming Default.framing (get "framing")
    sequenceNumbers := ← setting readBool Default.sequenceNumbers (get "sequence_numbers")
    commandTimeoutSecs :=
      ← setting readUInt64 Default.commandTimeoutSecs (get "command_timeout_secs")
    reconnectDelayMs := ← setting readUInt64 Default.reconnectDelayMs (get "reconnect_delay_ms")
    slowCommandWarnMs := ← setting readUInt64 Default.slowCommandWarnMs (get "slow_command_warn_ms")
    eventBuffer := ← setting readUInt64 Default.eventBuffer (get "event_buffer") }

/-- The settings of the service. -/
def readService (v : Value) : Option ServiceConfig := do
  let get ← fields? ["socket_path"] v
  return { socketPath := ← setting readString Default.serviceSocketPath (get "socket_path") }

/-- The settings of the log. -/
def readLogging (v : Value) : Option LoggingConfig := do
  let get ← fields? ["level"] v
  return { level := ← setting readString Default.logLevel (get "level") }

/-- The configuration that the entries of a document describe. -/
def ofEntries? (entries : Toml.Entries) : Option AppConfig := do
  let get ← fields? ["daemon", "service", "logging"] (.table .headed entries)
  return {
    daemon := ← setting readDaemon {} (get "daemon")
    service := ← setting readService {} (get "service")
    logging := ← setting readLogging {} (get "logging") }

/-- The configuration that a text describes, if all its settings make sense. -/
def parse (s : String) : Except ConfigError AppConfig :=
  match (Toml.read? s.toList).bind ofEntries? with
  | none => .error .parse
  | some c => c.validate.map fun _ => c

/-- The configuration in a file with these bytes, or in no file. -/
def load : Option (List UInt8) → Except ConfigError AppConfig
  | none => .error (.io ExchangeError.noSuchFile)
  | some bytes =>
    match Utf8.decode? bytes with
    | none => .error (.io "stream did not contain valid UTF-8")
    | some cs => parse (String.ofList cs)

end AppConfig
end EfsControl
