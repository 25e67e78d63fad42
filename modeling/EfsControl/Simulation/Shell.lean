/-
# Commands in simulated time

Commands are run one after the other in a working directory, beside a daemon
that follows a script and perhaps a service that runs all the while. A command
that asks the daemon without the service has a connection of its own, on which
its commands are numbered from one.

Key definitions: `Shell`, `Shell.run`, `Shell.startService`, `Shell.monitor`.
-/
import EfsControl.Cli.Report
import EfsControl.Simulation.Stack

namespace EfsControl

open Cli (Result)
open Client (Call)
open Simulation (endless)

/-- A working directory and what goes on beside it. -/
structure Shell where
  files : Files
  script : Option Script := none
  /-- How the daemon reads and writes. -/
  wire : Wire := {}
  /-- The commands that the daemon has got. -/
  received : List ReceivedCommand := []
  /-- The service. -/
  service : Option Stack := none

namespace Shell

/-- The configuration at a path. -/
def config (sh : Shell) (path : String) : Except String AppConfig :=
  match sh.files.at? path with
  | none => Cli.loadConfig path none
  | some (.plain content) => Cli.loadConfig path (some content)
  | some _ => .error (Cli.loadError path)

/-- A connector that is about to start, and the daemon if it can be reached. -/
def connector (sh : Shell) (setup : Connector.Setup) : Simulation :=
  let socket := sh.files.socketAt setup.config.socketPath
  { Simulation.ofSetup setup (if socket = .listening then sh.script else none) socket with
    wire := sh.wire
    received := sh.received }

/-! ### The service -/

/-- The shell beside a service. -/
def beside (sh : Shell) (s : Stack) : Shell :=
  { sh with service := some s, files := s.files, received := s.sim.received }

/-- A service starts; with its end if it is over at once. -/
def startService (sh : Shell) (config : AppConfig) : Shell × Option Result :=
  let s := Stack.start config (sh.connector (.ofService config.daemon)).start.settle sh.files
  match s.phase with
  | .ended cause =>
    ({ sh with files := s.files }, some (Cli.serveResult config.service.socketPath cause))
  | _ => (sh.beside s, none)

/-- The service is asked to stop, if there is one. -/
def stopService (sh : Shell) : Shell :=
  match sh.service with
  | some s => sh.beside s.stop
  | none => sh

/-- A client makes a call; without a result it has gone away before the answer. -/
def call (sh : Shell) (config : AppConfig) (c : Call) (patience : Nat := endless) :
    Shell × Option (Except ClientError c.Result) :=
  let path := config.service.socketPath
  match Client.reach path (sh.files.socketAt path), sh.service with
  | .error e, _ => (sh, some (.error e))
  | .ok (), none => (sh, some (.error .broken))
  | .ok (), some s =>
    let (s, result) :=
      Stack.exchange { s with sim := { s.sim with received := sh.received } } c patience
    (sh.beside s, result)

/-! ### The daemon without the service -/

/-- How long a command waits for the daemon, in milliseconds. -/
def connectLimit : Nat := 5000

/-- The worker starts; without a simulation it does not reach the daemon in time. -/
def connect (sh : Shell) (config : AppConfig) : Option Simulation :=
  let (sim, k) :=
    (sh.connector (.ofNobody config.daemon)).start.spawn (.awaitConnection connectLimit)
  let sim := Simulation.waitFor k (connectLimit / Simulation.tick + 1) sim.settle
  match sim.report? k with
  | some (.waited true) => some sim
  | _ => none

/-- An operation is performed without the service, by a command that is interrupted after so many
ticks. -/
def performDirect (sh : Shell) (config : AppConfig) (op : Operation) (patience : Nat := endless) :
    Shell × Result :=
  match sh.connect config with
  | none => (sh, .failed (Cli.unreachableError config.daemon.socketPath))
  | some sim =>
    let (sim, code?) := sim.performOne op patience
    ({ sh with received := sim.received }, code?.elim .killed (Cli.operationResult op))

/-- What a command makes of the answer to its request for an operation. -/
def remoteResult (op : Operation) : Except ClientError Int32 → Result
  | .ok code => Cli.operationResult op code
  | .error _ => .failed Cli.remoteError

/-- An operation is performed through the service, for a command that is interrupted after so many
ticks. -/
def performRemote (sh : Shell) (config : AppConfig) (op : Operation) (patience : Nat := endless) :
    Shell × Result :=
  let (sh, answer) := sh.call config (.perform op) patience
  (sh, answer.elim .killed (remoteResult op))

/-- Events are watched while the daemon writes some lines. -/
def monitor (sh : Shell) (config : AppConfig) (lines : List String) : Result :=
  match sh.connect config with
  | none => .failed (Cli.unreachableError config.daemon.socketPath)
  | some sim =>
    let after := lines.foldl Simulation.emit sim
    .printed (String.join ((after.events.drop sim.events.length).map Cli.eventLine))

/-! ### Commands -/

/-- A command is carried out, if it is not interrupted after so many ticks. -/
def execute (sh : Shell) (config : AppConfig) (i : Cli.Invocation) (input : String)
    (patience : Nat := endless) : Shell × Result :=
  match i.command with
  | .serve =>
    let (sh, ended) := sh.startService config
    (sh.stopService, ended.getD {})
  | .status =>
    let (sh, answer) := sh.call config .status patience
    (sh, answer.elim .killed Cli.statusResult)
  | .stop =>
    let (sh, answer) := sh.call config .stop patience
    (sh, answer.elim .killed Cli.stopResult)
  | .config all => (sh, Cli.configResult i.configPath config all)
  | .monitor => (sh, sh.monitor config [])
  | .operate command =>
    let op := (command.withInput input.toList).1
    if i.direct then sh.performDirect config op patience else sh.performRemote config op patience

/-- A command line is run. -/
def run (sh : Shell) (args : List String) (input : String) (patience : Nat := endless) :
    Shell × Result :=
  match Cli.parse args with
  | .error e => (sh, Cli.interrupted {} e)
  | .ok i =>
    match sh.config i.configPath with
    | .error message => (sh, .failed message)
    | .ok config => sh.execute config i input patience

end Shell
end EfsControl
