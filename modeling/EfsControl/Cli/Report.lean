/-
# What the command line answers

A command ends with an exit status, a text on the standard output and perhaps
an error. An operation prints its result code and fails when the code means
failure.

Key definitions: `Cli.Result`, `Cli.exitStatus`, `Cli.interrupted`.
-/
import EfsControl.Cli.Command
import EfsControl.Client
import EfsControl.Config.Read
import EfsControl.Config.Write
import EfsControl.Http.Router
import EfsControl.Outcome
import EfsControl.Service.Lifecycle

namespace EfsControl
namespace Cli

/-- How a command has ended. -/
structure Result where
  exit : Nat := 0
  output : String := ""
  error : Option String := none
  deriving DecidableEq

namespace Result

/-- A success that prints something. -/
def printed (output : String) : Result := { output := output }

/-- A failure with an error. -/
def failed (error : String) : Result := { exit := 1, error := some error }

/-- The exit status for arguments that make no sense. -/
def usageExit : Nat := 2

/-- The end of a command that is interrupted from outside, as a shell tells of it. -/
def killed : Result := { exit := 130 }

end Result

/-! ### Help -/

/-- The lines of a help text about some words. -/
def helpLines (words : List String) : List String :=
  let name := " ".intercalate ("efsctl" :: words)
  match specAt? words with
  | none => ["Usage: " ++ name ++ " [COMMAND]..."]
  | some spec =>
    let places := spec.places.map fun p => " <" ++ p.name ++ ">"
    let tail := if spec.subcommands.isEmpty then String.join places else " <COMMAND>"
    let options := spec.options.map fun o =>
      "  " ++ (o.short.elim "    " fun c => "-" ++ String.singleton c ++ ", ") ++ "--" ++ o.long
    ["Usage: " ++ name ++ " [OPTIONS]" ++ tail] ++
      (if spec.subcommands.isEmpty then [] else "" :: "Commands:" :: spec.subcommands.map ("  " ++ ·)) ++
      "" :: "Options:" :: options

/-- The help text about some words. -/
def helpText (words : List String) : String := String.join ((helpLines words).map (· ++ "\n"))

/-- The line that names the program and its version. -/
def versionLine (b : Http.Build) : String := "efsctl " ++ b.version ++ "\n"

/-- The end where no command is carried out. -/
def interrupted (b : Http.Build) : Interruption → Result
  | .usage => { exit := Result.usageExit }
  | .help words => .printed (helpText words)
  | .version => .printed (versionLine b)

/-! ### Texts -/

/-- The error where a configuration is there but cannot be used. -/
def loadError (path : String) : String := "failed to load " ++ path

/-- The error where the daemon cannot be reached. -/
def unreachableError (path : String) : String := "could not connect to efs-server at " ++ path

/-- The error where the service has not performed an operation. -/
def remoteError : String :=
  "service request failed (is \x60efsctl serve\x60 running? try --direct)"

/-- The wording of a client's error. -/
def clientError (e : ClientError) : String :=
  e.message?.getD (match e with
    | .parse => "failed to parse response"
    | _ => "request failed")

/-- The state of the service. -/
def statusText (s : StatusResponse) : String :=
  "version:          " ++ s.version ++ "\n" ++
  "pid:              " ++ toString s.pid.toNat ++ "\n" ++
  "uptime:           " ++ toString s.uptimeSecs.toNat ++ "s\n" ++
  "service socket:   " ++ s.serviceSocket ++ "\n" ++
  "daemon socket:    " ++ s.daemonSocket ++ "\n" ++
  "command prefix:   " ++ s.commandPrefix ++ "\n" ++
  "daemon:           " ++ (if s.daemonConnected then "connected" else "disconnected") ++ "\n"

/-- An event. -/
def eventLine (e : Event) : String := toString e.code ++ " " ++ e.message ++ "\n"

/-- What is said when events are about to be watched. -/
def monitorBanner (c : AppConfig) : String :=
  "Monitoring " ++ c.daemon.socketPath ++ " (Ctrl-C to stop)\n"

/-! ### Ends of commands -/

/-- The configuration has been checked. -/
def configResult (path : String) (c : AppConfig) (all : Bool) : Result :=
  .printed (if all then c.pretty ++ "\n" else "Configuration at '" ++ path ++ "' is valid.\n")

/-- The configuration that the content of a file describes, if there is a file; otherwise the one
of all defaults. -/
def loadConfig (path : String) : Option (List UInt8) → Except String AppConfig
  | none => .ok {}
  | some content => (AppConfig.load (some content)).mapError fun _ => loadError path

/-- The exit status after an operation. -/
def exitStatus (kind : ResultKind) (code : Int32) : Nat := if operationFailed kind code then 1 else 0

/-- An operation has been performed. -/
def operationResult (op : Operation) (code : Int32) : Result where
  exit := exitStatus op.resultKind code
  output := toString code.toInt ++ "\n"

/-- The state of the service has been asked for. -/
def statusResult : Except ClientError StatusResponse → Result
  | .ok s => .printed (statusText s)
  | .error e => .failed (clientError e)

/-- The service has been asked to stop. -/
def stopResult : Except ClientError StopResponse → Result
  | .ok s => .printed (s.message ++ "\n")
  | .error e => .failed (clientError e)

/-- The service is over. -/
def serveResult (path : String) : (cause : Option String) → Result
  | none => {}
  | some cause => .failed (Service.serveError path cause)

end Cli
end EfsControl
