/-
# Writing a configuration

A configuration is written as three tables with an empty line between them,
and in each table every setting, in order, on a line of its own.

Key definitions: `AppConfig.pretty`.
-/
import EfsControl.Config
import EfsControl.Toml.Quoted

namespace EfsControl

/-- The word for a framing. -/
def Framing.word : Framing → String
  | .nul => "nul"
  | .newline => "newline"

/-- The word for a truth value. -/
def boolWord (b : Bool) : List Char := if b then "true".toList else "false".toList

namespace AppConfig

/-- A setting on a line of its own. -/
def settingLine (name : String) (value : List Char) : List Char :=
  name.toList ++ " = ".toList ++ value ++ ['\n']

/-- A table with its settings. -/
def tableLines (name : String) (settings : List (String × List Char)) : List Char :=
  '[' :: name.toList ++ [']', '\n'] ++ settings.flatMap fun (k, v) => settingLine k v

/-- The settings of the connection, as written. -/
def daemonSettings (c : DaemonConfig) : List (String × List Char) :=
  [("socket_path", Toml.writeText c.socketPath.toList),
   ("command_prefix", Toml.writeText c.commandPrefix.toList),
   ("framing", Toml.writeText c.framing.word.toList),
   ("sequence_numbers", boolWord c.sequenceNumbers),
   ("command_timeout_secs", Text.digits c.commandTimeoutSecs.toNat),
   ("reconnect_delay_ms", Text.digits c.reconnectDelayMs.toNat),
   ("slow_command_warn_ms", Text.digits c.slowCommandWarnMs.toNat),
   ("event_buffer", Text.digits c.eventBuffer.toNat)]

/-- The settings of the service, as written. -/
def serviceSettings (c : ServiceConfig) : List (String × List Char) :=
  [("socket_path", Toml.writeText c.socketPath.toList)]

/-- The settings of the log, as written. -/
def loggingSettings (c : LoggingConfig) : List (String × List Char) :=
  [("level", Toml.writeText c.level.toList)]

/-- The text of a configuration. -/
def prettyChars (c : AppConfig) : List Char :=
  tableLines "daemon" (daemonSettings c.daemon) ++
    '\n' :: tableLines "service" (serviceSettings c.service) ++
    '\n' :: tableLines "logging" (loggingSettings c.logging)

/-- The text of a configuration, as a string. -/
def pretty (c : AppConfig) : String := String.ofList c.prettyChars

end AppConfig
end EfsControl
