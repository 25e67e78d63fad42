/-
# The life of the service

The service starts the connector's worker and puts its socket in place. It
serves until it is asked to stop; then it takes its socket away and waits for
the worker. Where the socket cannot be put in place, the service ends as if it
had been asked to stop.

It can be asked to stop at any time, by a request, by its owner or by an
interrupt, and as often as one likes.

Key definitions: `Service.Phase`, `Service.State`, `Service.Action`,
`Service.step`, `Service.Reachable`.
-/
import EfsControl.Connector.Step
import EfsControl.Service.Files

namespace EfsControl
namespace Service

/-- How the service is set up. -/
structure Setup where
  config : AppConfig := {}
  /-- Which events the receiver of events takes care of. -/
  handles : Event → Bool := fun _ => true

/-- The setup of its connector, which tells the service of connections and events. -/
def Setup.connector (s : Setup) : Connector.Setup :=
  { Connector.Setup.ofService s.config.daemon with handles := s.handles }

/-- How far the service is. -/
inductive Phase
  /-- Its socket is not in place yet. -/
  | preparing
  | serving
  /-- It does not serve any more, or never has, because of `cause`, and waits for the worker. -/
  | closing (cause : Option String)
  | ended (cause : Option String)
  deriving DecidableEq

/-- The service. -/
structure State where
  phase : Phase := .preparing
  connector : Connector.State := {}
  files : Files := {}

/-- What can happen. -/
inductive Action
  /-- The connector goes on by itself. -/
  | connector (a : Connector.Action)
  /-- The service puts its socket in place, if it can. -/
  | prepare
  /-- The service is asked to stop. -/
  | requestStop
  /-- The service finds that it is to stop, and takes its socket away. -/
  | close
  /-- The worker has stopped, and the service is over. -/
  | finish

/-- The actions that the connector takes by itself: it is asked to stop only by the service. -/
def isOwn : Connector.Action → Bool
  | .signal => false
  | _ => true

/-- Asks the worker to stop. -/
def State.signal (setup : Setup) (s : State) : Option State :=
  (Connector.step setup.connector s.connector .signal).map fun (c, _) => { s with connector := c }

/-- What follows an action, where it can happen. -/
def step (setup : Setup) (s : State) : Action → Option (State × List Connector.Note)
  | .connector a =>
    if isOwn a then
      (Connector.step setup.connector s.connector a).map fun (c, notes) =>
        ({ s with connector := c }, notes)
    else none
  | .prepare =>
    if s.phase = .preparing then
      match s.files.placeSocket setup.config.service.socketPath with
      | (files, none) => some ({ s with phase := .serving, files }, [])
      | (files, some cause) =>
        (State.signal setup { s with phase := .closing (some cause), files }).map (·, [])
    else none
  | .requestStop => (s.signal setup).map (·, [])
  | .close =>
    if s.phase = .serving && s.connector.stopping then
      let files := s.files.removeSocket setup.config.service.socketPath
      some ({ s with phase := .closing none, files }, [])
    else none
  | .finish =>
    match s.phase with
    | .closing cause =>
      if s.connector.worker = .stopped then some ({ s with phase := .ended cause }, []) else none
    | _ => none

/-- The state after actions in a row, where all of them can happen, and all that was noted. -/
def run (setup : Setup) (s : State) : List Action → Option (State × List Connector.Note)
  | [] => some (s, [])
  | a :: as => do
    let (s, notes) ← step setup s a
    let (s, more) ← run setup s as
    return (s, notes ++ more)

/-- The states that some actions lead to from a service that is about to start. -/
def Reachable (setup : Setup) (files : Files) (s : State) : Prop :=
  ∃ actions notes, run setup { files := files } actions = some (s, notes)

/-- The wording of why the service could not be started. -/
def serveError (path cause : String) : String := "IPC server on " ++ path ++ " failed: " ++ cause

end Service
end EfsControl
