/-
# Sessions

A session is a simulation in which the far end of the connections does what it
is told step by step. After each step it is reported what has become visible
since the step before.

Key definitions: `Session`, `Session.Step`, `Session.Account`, `Session.take`.
-/
import EfsControl.Simulation.Basic

namespace EfsControl

/-- A simulation with what has been reported of it. -/
structure Session where
  sim : Simulation
  /-- What the callers are called, in the order in which they came. -/
  names : List String := []
  /-- The callers that have been reported. -/
  reported : List Nat := []
  /-- The last connection whose far end has been closed. -/
  closed : Option Nat := none
  /-- Whether the latest connection has been seen to end. -/
  sawEnd : Bool := false
  /-- How many complete lines of each connection have been reported. -/
  counted : List Nat := []

namespace Session

/-- A step of a session. -/
inductive Step
  | listen
  /-- The daemon stops listening, but its socket stays. -/
  | unlisten
  | unlink
  | start
  | shutDown
  | spawn (name : String) (errand : Errand)
  | abort (name : String)
  | send (bytes : List UInt8)
  /-- The daemon closes its end of the latest connection. -/
  | hangUp
  | advance (ms : Nat)
  | subscribe
  | receive

/-- What a step itself gives. -/
inductive Yield
  | nothing
  | sent
  | deliveries (perSubscriber : List (List Connector.Delivery))

/-- What is reported of a step. -/
structure Account where
  yield : Yield
  /-- The callers that have ended, in the order in which they came. -/
  finished : List (String × Report)
  connected : Bool
  accepted : Nat
  sawEnd : Bool
  /-- The complete lines that have been received. -/
  lines : List (List UInt8)
  onlineCount : Nat
  events : List Event
  stopped : Bool
  /-- What has been logged, apart from how long answers took: a session jumps over its time. -/
  log : List LogEntry

/-- A session in which nothing has happened. -/
def ofSetup (setup : Connector.Setup) : Session := { sim := .ofSetup setup none .absent }

/-- The latest connection. -/
def latest? (s : Session) : Option Nat :=
  match s.sim.state.conns.length with
  | 0 => none
  | n + 1 => some n

/-- The latest connection, if its far end is open and it can be written to from there. -/
def writable? (s : Session) : Option Nat :=
  s.latest?.filter fun conn => s.closed != some conn && !s.sim.isClosed conn

/-- What a step does before the tasks take their turns. -/
def perform (s : Session) : Step → Session × Yield
  | .listen => ({ s with sim := { s.sim with socket := .listening } }, .nothing)
  | .unlisten => ({ s with sim := { s.sim with socket := .deaf } }, .nothing)
  | .unlink => ({ s with sim := { s.sim with socket := .absent } }, .nothing)
  | .start => ({ s with sim := s.sim.start }, .nothing)
  | .shutDown => ({ s with sim := s.sim.shutDown }, .nothing)
  | .spawn name errand =>
    ({ s with sim := (s.sim.spawn errand).1, names := s.names ++ [name] }, .nothing)
  | .abort name =>
    match s.names.findIdx? (· == name) with
    | some k => ({ s with sim := s.sim.abort k }, .nothing)
    | none => (s, .nothing)
  | .send bytes =>
    match s.writable? with
    | some conn => ({ s with sim := s.sim.act (.deliver conn bytes) }, .sent)
    | none => (s, .nothing)
  | .hangUp =>
    match s.latest? with
    | some conn =>
      ({ s with sim := s.sim.act (.breakOff conn), closed := some conn }, .nothing)
    | none => (s, .nothing)
  | .advance ms => ({ s with sim := s.sim.jump ms }, .nothing)
  | .subscribe => ({ s with sim := { s.sim with feed := s.sim.feed.subscribe } }, .nothing)
  | .receive =>
    let (feed, deliveries) := s.sim.feed.receive
    ({ s with sim := { s.sim with feed } },
      if deliveries.isEmpty then .nothing else .deliveries deliveries)

/-- The complete lines that the far end of each connection has got. -/
def linesOf (s : Session) : List (List (List UInt8)) :=
  s.sim.state.conns.map fun c => (splitLines s.sim.setup.config.framing.terminator c.written).1

/-- Whether the far end of the latest connection has seen it end, given how many there were before
the step. -/
def seesEnd (s : Session) (before : Nat) : Bool :=
  let sealed := match s.latest? with
    | some conn =>
      s.closed != some conn && ((s.sim.state.conns[conn]?).map (·.sealed)).getD false
    | none => false
  (s.sawEnd && s.sim.state.conns.length = before) || sealed

/-- Whether an entry of the log tells how long an answer took. -/
def isTimed : LogEntry → Bool
  | .slow .. => true
  | _ => false

/-- What has become visible, and the session after it has been reported. -/
def account (s : Session) (before : Session) (yield : Yield) : Session × Account :=
  let lines := s.linesOf
  let fresh := (lines.zipIdx.map fun (ls, c) => ls.drop (s.counted.getD c 0)).flatten
  let ended := s.sim.jobs.zipIdx.filterMap fun (j, k) =>
    if s.reported.contains k then none else j.report.map fun r => (k, r)
  let sawEnd := s.seesEnd before.sim.state.conns.length
  ({ s with
      reported := s.reported ++ ended.map (·.1)
      sawEnd
      counted := lines.map (·.length) },
    { yield
      finished := ended.map fun (k, r) => (s.names.getD k "", r)
      connected := s.sim.state.connected
      accepted := s.sim.state.conns.length
      sawEnd
      lines := fresh
      onlineCount := s.sim.onlineCount
      events := s.sim.events.drop before.sim.events.length
      stopped := s.sim.state.worker = .stopped
      log := (s.sim.log.drop before.sim.log.length).filter fun e => !isTimed e })

/-- A step of a session and its account. Where it does not settle, the tasks take their turns after
a later step. -/
def take (s : Session) (step : Step) (settles : Bool) : Session × Account :=
  let (s', yield) := s.perform step
  let s' := if settles then { s' with sim := s'.sim.settle } else s'
  s'.account s yield

/-- How many callers have not ended. -/
def waiting (s : Session) : Nat := (s.sim.jobs.filter (·.report.isNone)).length

end Session
end EfsControl
