/-
# Configuration

The settings of the connection to the daemon, of the local service and of the
log. Every setting has a default: one for where it is left out of its table,
and one in the default configuration. A configuration is checked before it is
used; the first check that fails, in the order of the settings, is the one
that is reported.

Key definitions: `AppConfig`, `AppConfig.validate`, `ConfigError`.
-/
import EfsControl.Command.Encode
import EfsControl.Text.Duration

namespace EfsControl

/-! ### Settings that are left out -/

namespace Default

/-- The path of the daemon's socket. -/
def daemonSocketPath : String := "/dev/socket/efs-server"

/-- The first word of every command. -/
def commandPrefix : String := "efs-server"

/-- What ends a line. -/
def framing : Framing := .nul

/-- Commands are numbered. -/
def sequenceNumbers : Bool := true

/-- How long to wait for a reply, in seconds. -/
def commandTimeoutSecs : UInt64 := 30

/-- How long to wait before connecting again. -/
def reconnectDelayMs : UInt64 := 5000

/-- How long a command may take before it is called slow. -/
def slowCommandWarnMs : UInt64 := 500

/-- How many events are kept. -/
def eventBuffer : UInt64 := 64

/-- The path of the socket that the service listens on. -/
def serviceSocketPath : String := "/run/efs/efs-service.sock"

/-- How much is logged. -/
def logLevel : String := "info"

end Default

/-! ### All settings, and the default configuration -/

/-- The connection to the daemon. -/
structure DaemonConfig where
  /-- The path of the daemon's socket. -/
  socketPath : String := Default.daemonSocketPath
  /-- The first word of every command. -/
  commandPrefix : String := Default.commandPrefix
  framing : Framing := .nul
  /-- Whether commands are numbered and replies found by their number. -/
  sequenceNumbers : Bool := true
  /-- How long to wait for a reply, in seconds; `0` is for ever. -/
  commandTimeoutSecs : UInt64 := Default.commandTimeoutSecs
  /-- How long to wait before connecting again. -/
  reconnectDelayMs : UInt64 := Default.reconnectDelayMs
  /-- How long a command may take before it is called slow. -/
  slowCommandWarnMs : UInt64 := Default.slowCommandWarnMs
  /-- How many events are kept for a subscriber that has not read them. -/
  eventBuffer : UInt64 := Default.eventBuffer
  deriving DecidableEq, Inhabited

namespace DaemonConfig

/-- How long to wait for a reply, if not for ever. -/
def commandTimeout (c : DaemonConfig) : Option Duration :=
  if c.commandTimeoutSecs = 0 then none else some (.ofSecs c.commandTimeoutSecs.toNat)

/-- How long to wait before connecting again. -/
def reconnectDelay (c : DaemonConfig) : Duration := .ofMillis c.reconnectDelayMs.toNat

/-- How long a command may take before it is called slow. -/
def slowCommandThreshold (c : DaemonConfig) : Duration := .ofMillis c.slowCommandWarnMs.toNat

end DaemonConfig

/-- The local service. -/
structure ServiceConfig where
  /-- The path of the socket that the service listens on. -/
  socketPath : String := Default.serviceSocketPath
  deriving DecidableEq, Inhabited

/-- The log. -/
structure LoggingConfig where
  level : String := Default.logLevel
  deriving DecidableEq, Inhabited

/-- All settings. -/
structure AppConfig where
  daemon : DaemonConfig := {}
  service : ServiceConfig := {}
  logging : LoggingConfig := {}
  deriving DecidableEq, Inhabited

/-! ### Checks -/

/-- Why there is no configuration. -/
inductive ConfigError
  /-- The file cannot be read. -/
  | io (cause : String)
  /-- The text is not the description of a configuration. -/
  | parse
  /-- A setting has a value that makes no sense. -/
  | validation (reason : String)
  deriving DecidableEq

/-- The wording of the error, where it is fixed. -/
def ConfigError.message? : ConfigError → Option String
  | .io cause => some ("failed to read config file: " ++ cause)
  | .parse => none
  | .validation reason => some ("validation error: " ++ reason)

namespace AppConfig

/-- The levels that a log can have. -/
def logLevels : List String := ["error", "warn", "info", "debug", "trace"]

/-- Whether a character may not be in the command prefix. -/
def isForbiddenInPrefix (c : Char) : Bool := Text.isBlank c || c == '"' || c == '\\'

/-- The checks on the settings in order, each with what is wrong when it fails. -/
def checks (c : AppConfig) : List (Bool × String) :=
  [(c.daemon.socketPath != "", "daemon.socket_path must not be empty"),
   (c.daemon.commandPrefix != "", "daemon.command_prefix must not be empty"),
   (!c.daemon.commandPrefix.toList.any isForbiddenInPrefix,
    "daemon.command_prefix must be a single word without quotes or backslashes, got "
      ++ Text.quoted c.daemon.commandPrefix),
   (c.daemon.reconnectDelayMs != 0, "daemon.reconnect_delay_ms must be non-zero"),
   (c.daemon.eventBuffer != 0, "daemon.event_buffer must be at least 1"),
   (c.service.socketPath != "", "service.socket_path must not be empty"),
   (logLevels.contains c.logging.level,
    "logging.level must be one of " ++ Text.bracketed (logLevels.map Text.quoted) ++ ", got "
      ++ Text.quoted c.logging.level)]

/-- The configuration if all its settings make sense, or the first that does not. -/
def validate (c : AppConfig) : Except ConfigError Unit :=
  match c.checks.find? fun check => !check.1 with
  | some (_, reason) => .error (.validation reason)
  | none => .ok ()

end AppConfig
end EfsControl
