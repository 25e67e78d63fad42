/-
# The whole service in simulated time

A client makes calls to a service whose connector talks to a scripted daemon.
After every step of the service, everything goes on until there is nothing
left to do, so a service that has been asked to stop is over before the next
step.

Key definitions: `Stack`, `Stack.start`, `Stack.call`, `Stack.stop`.
-/
import EfsControl.Client
import EfsControl.Service.Lifecycle
import EfsControl.Simulation.Serving

namespace EfsControl

open Client (Call)
open Simulation (endless)

/-- A service and what surrounds it. -/
structure Stack where
  config : AppConfig
  sim : Simulation
  files : Files
  phase : Service.Phase := .preparing

namespace Stack

/-- The path of the service's socket. -/
def path (s : Stack) : String := s.config.service.socketPath

/-- What a client finds at the path of the service's socket. -/
def socket (s : Stack) : Socket := s.files.socketAt s.path

/-- Whether the service is there. -/
def isRunning (s : Stack) : Bool := s.phase = .serving

/-- The service is over because of `cause`: the worker has been asked to stop and has stopped. -/
def finish (s : Stack) (cause : Option String) : Stack :=
  { s with sim := s.sim.shutDown.settle, phase := .ended cause }

/-- The service is asked to stop, if it is there. -/
def stop (s : Stack) : Stack :=
  if s.isRunning then finish { s with files := s.files.removeSocket s.path } none else s

/-- A service starts among some files, with a connector that has started. -/
def start (config : AppConfig) (sim : Simulation) (files : Files) : Stack :=
  match files.placeSocket config.service.socketPath with
  | (files, none) => { config, sim, files, phase := .serving }
  | (files, some cause) => finish { config, sim, files } (some cause)

/-- A client that has reached the service makes a call; without a result it has gone away before the
answer, after so many ticks. -/
def exchange (s : Stack) (c : Call) (patience : Nat := endless) :
    Stack × Option (Except ClientError c.Result) :=
  let (sim, served) := s.sim.serve s.config c.request patience
  let s := { s with sim }
  let s := if served.stops then s.stop else s
  (s, served.response.map fun r => c.read (Client.answerOf r))

/-- A client makes a call. -/
def call (s : Stack) (c : Call) (patience : Nat := endless) :
    Stack × Option (Except ClientError c.Result) :=
  match Client.reach s.path s.socket with
  | .error e => (s, some (.error e))
  | .ok () => s.exchange c patience

end Stack
end EfsControl
