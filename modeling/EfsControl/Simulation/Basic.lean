/-
# A run of the connector in simulated time

The connector runs against a socket and a clock that stands still unless it is
moved. Callers, the worker and the far ends of connections are tasks. A task
that has something to do goes on until it has to wait; tasks take turns in the
order in which they were woken. Only when none is left do connections come
about and do bytes that have been sent become readable. A connection holds only
so many bytes that its far end has not taken; a caller whose command is longer
waits for the far end to read.

A simulation takes no step of its own: everything that changes the connector
is one of its actions.

Key definitions: `Job`, `Task`, `Simulation`, `Simulation.act`, `settle`,
`advance`.
-/
import EfsControl.Connector.Feed
import EfsControl.Connector.Step
import EfsControl.Daemon.Script
import EfsControl.Socket

namespace EfsControl

open Connector (Setup Action Note Party Worker Phase Slot Feed)

/-- What a caller does. -/
inductive Errand
  /-- It sends one command. -/
  | execute (subcommand : String) (args : List Arg)
  /-- It performs an operation. -/
  | perform (op : Operation)
  /-- It waits until the worker is connected, for so many milliseconds at most. -/
  | awaitConnection (ms : Nat)

/-- How a caller's errand ended. -/
inductive Report
  | exchanged (result : ExchangeResult)
  | coded (code : Int32)
  | waited (connected : Bool)
  /-- The caller was sent away. -/
  | aborted

/-- A caller. -/
structure Job where
  errand : Errand
  /-- The number of its call, once it has asked for the lock. -/
  call : Option Nat := none
  /-- When it stops waiting. -/
  deadline : Option Nat := none
  /-- Whether it is to go away. -/
  doomed : Bool := false
  report : Option Report := none

/-- Someone who takes turns. -/
inductive Task
  | job (k : Nat)
  | worker
  | link (k : Nat)
  deriving DecidableEq

/-- How far the worker's attempt to connect is. -/
inductive Dialling
  | no
  | underway
  | answered
  deriving DecidableEq

/-- An attempt that is under way has been answered. -/
def Dialling.heard : Dialling → Dialling
  | .underway => .answered
  | d => d

/-- The far end of a connection, where a scripted daemon stands there. -/
structure Link where
  conn : Nat
  /-- How many bytes it has read. -/
  consumed : Nat := 0
  /-- What it still has to do about the command with this number. -/
  reactions : List Reaction := []
  seq : Option UInt32 := none
  /-- When it goes on. -/
  wakeAt : Option Nat := none
  isAlive : Bool := true
  /-- Whether its writing side is closed. -/
  isShut : Bool := false
  /-- Whether it is written to and closed together with the others. -/
  isListed : Bool := true

/-- How a daemon reads commands and writes replies. -/
structure Wire where
  framing : Framing := .nul
  numbered : Bool := true
  deriving DecidableEq

/-- How a daemon reads and writes that fits a configuration. -/
def Wire.ofConfig (c : DaemonConfig) : Wire := ⟨c.framing, c.sequenceNumbers⟩

/-- The connector with all that surrounds it. -/
structure Simulation where
  setup : Setup
  /-- How the daemon reads and writes. -/
  wire : Wire := .ofConfig setup.config
  /-- What the daemon does about commands; without one, nobody reads them. -/
  script : Option Script := none
  feed : Feed
  state : Connector.State := {}
  /-- The time in milliseconds. -/
  now : Nat := 0
  /-- What is at the path of the daemon's socket. -/
  socket : Socket := .absent
  /-- The tasks that have something to do, in turn. -/
  ready : List Task := []
  dialling : Dialling := .no
  /-- Whether the worker has been started. -/
  isStarted : Bool := false
  /-- When the worker stops sleeping. -/
  sleepUntil : Option Nat := none
  jobs : List Job := []
  links : List Link := []
  log : List LogEntry := []
  /-- The events that the receiver has got. -/
  events : List Event := []
  /-- How often the receiver has been told of a connection. -/
  onlineCount : Nat := 0
  /-- When each call registered. -/
  begunAt : List (Nat × Nat) := []
  /-- The commands that the daemon has got. -/
  received : List ReceivedCommand := []

namespace Simulation

/-- A simulation in which nothing has happened. -/
def ofSetup (setup : Setup) (script : Option Script) (socket : Socket) : Simulation :=
  { setup, script, socket, feed := .ofBuffer setup.config.eventBuffer.toNat }

/-! ### Waking -/

/-- A task has something to do; it takes one turn for it. -/
def wake (w : Simulation) (t : Task) : Simulation :=
  if w.ready.contains t then w else { w with ready := w.ready ++ [t] }

/-- The job that makes a call. -/
def jobOf? (w : Simulation) (id : Nat) : Option Nat := w.jobs.findIdx? (·.call == some id)

/-- The caller that makes a call has something to do. -/
def wakeCall (w : Simulation) (id : Nat) : Simulation :=
  match w.jobOf? id with
  | some k => w.wake (.job k)
  | none => w

/-- Whoever has been given the lock has something to do. -/
def wakeHolder (w : Simulation) (before after : Option Party) : Simulation :=
  if before = after then w
  else
    match before, after with
    | some _, some .worker => w.wake .worker
    | some _, some (.call id) => w.wakeCall id
    | _, _ => w

/-- Whether a slot has been filled. -/
def isFilled : Slot → Slot → Bool
  | .waiting, .answered _ | .waiting, .severed => true
  | _, _ => false

/-- The calls whose slots have been filled. -/
def filledCalls (before after : Connector.State) : List Nat :=
  ((before.calls.zip after.calls).zipIdx.filter fun ((a, b), _) => isFilled a.slot b.slot).map (·.2)

/-- Whether a job waits for a connection. -/
def Job.awaitsConnection (j : Job) : Bool :=
  match j.errand with
  | .awaitConnection _ => j.report.isNone
  | _ => false

/-- The callers that wait for a connection have something to do. -/
def wakeWaiters (w : Simulation) : Simulation :=
  (w.jobs.zipIdx.filter fun (j, _) => Job.awaitsConnection j).foldl (fun w (_, k) => w.wake (.job k)) w

/-! ### Actions -/

/-- Keeps what has been noted. -/
def record (w : Simulation) : Note → Simulation
  | .log e => { w with log := w.log ++ [e] }
  | .event e => { w with events := w.events ++ [e], feed := w.feed.publish e }
  | .online _ => { w with onlineCount := w.onlineCount + 1 }
  | .registered id .. => { w with begunAt := (id, w.now) :: w.begunAt }
  | _ => w

/-- The simulation after an action of the connector, with everyone woken whom it concerns; unchanged
where the action cannot happen. -/
def act (w : Simulation) (a : Action) : Simulation :=
  match Connector.step w.setup w.state a with
  | none => w
  | some (s, notes) =>
    let before := w.state
    let w := notes.foldl record { w with state := s }
    let w := if !before.resync && s.resync then w.wake .worker else w
    let w := (filledCalls before s).foldl wakeCall w
    let w := w.wakeHolder before.lock.holder s.lock.holder
    if !before.connected && s.connected then w.wakeWaiters else w

/-- The simulation with another log entry. -/
def logged (w : Simulation) (es : List LogEntry) : Simulation := { w with log := w.log ++ es }

/-- The simulation after a change to one job. -/
def onJob (w : Simulation) (k : Nat) (f : Job → Job) : Simulation :=
  { w with jobs := w.jobs.modify k f }

/-- The simulation after a change to one far end. -/
def onLink (w : Simulation) (k : Nat) (f : Link → Link) : Simulation :=
  { w with links := w.links.modify k f }

/-! ### Room for writing -/

/-- How many bytes a connection holds that its far end has not taken. -/
def socketBuffer : Nat := 212992

/-- The bytes that a far end has not read. -/
def unread (w : Simulation) (link : Link) : List UInt8 :=
  ((w.state.conns[link.conn]?.map (·.written)).getD []).drop link.consumed

/-- Whether a far end takes what is written to it. -/
def Link.isReading (l : Link) : Bool := l.isAlive && l.reactions.isEmpty && l.wakeAt.isNone

/-- How many of so many bytes can be written to a connection at once. -/
def room (w : Simulation) (conn count : Nat) : Nat :=
  match w.links.find? fun l => l.conn = conn && !Link.isReading l with
  | some link => min count (socketBuffer - (w.unread link).length)
  | none => count

/-- The call that is in the middle of writing and can go on. -/
def writer? (w : Simulation) : Option Nat :=
  match w.state.lock.holder with
  | some (.call id) =>
    match w.state.calls[id]? with
    | some { phase := .writing _ conn rest, .. } =>
      if (w.state.conns[conn]?.map (·.broken)).getD true || 0 < w.room conn rest.length then some id
      else none
    | _ => none
  | _ => none

/-! ### Turns of callers -/

/-- When a caller that starts to wait for its reply stops waiting. -/
def replyDeadline (w : Simulation) : Option Nat :=
  w.setup.config.commandTimeout.map fun limit => w.now + limit.millis

/-- How long ago a call registered. -/
def elapsed (w : Simulation) (id : Nat) : Duration :=
  .ofMillis (w.now - (w.begunAt.lookup id).getD w.now)

/-- Whether a time has come. -/
def isDue (w : Simulation) (t : Option Nat) : Bool := t.any (· ≤ w.now)

/-- What a caller reports of the result of its exchange, and what is logged about it. -/
def reportOf : Errand → ExchangeResult → Report × List LogEntry
  | .perform op, result =>
    let outcome := Outcome.decode op.resultKind result
    (.coded outcome.code, Outcome.log result ++ [.finished op.subcommand outcome])
  | _, result => (.exchanged result, [])

/-- A caller ends with a report. -/
def endJob (w : Simulation) (k : Nat) (report : Report) : Simulation :=
  w.onJob k fun j => { j with report := some report }

/-- A call goes on until it has to wait or is over. -/
def driveCall (k id : Nat) (errand : Errand) : (fuel : Nat) → Simulation → Simulation
  | 0, w => w
  | fuel + 1, w =>
    match w.state.calls[id]? with
    | none => w
    | some call =>
      match call.phase with
      | .queued =>
        if w.state.lock.holder = some (.call id) then driveCall k id errand fuel (w.act (.begin id))
        else w
      | .writing _ conn rest =>
        if (w.state.conns[conn]?.map (·.broken)).getD true then
          driveCall k id errand fuel (w.act (.writeFails id ExchangeError.brokenPipe))
        else
          let count := w.room conn rest.length
          if count = 0 then w
          else if count < rest.length then w.act (.write id count)
          else
            driveCall k id errand fuel <|
              (w.act (.write id count)).onJob k fun j => { j with deadline := w.replyDeadline }
      | .awaiting .. =>
        match call.slot with
        | .waiting =>
          if w.isDue ((w.jobs[k]?).bind (·.deadline)) then
            driveCall k id errand fuel (w.act (.timeout id))
          else w
        | _ => driveCall k id errand fuel (w.act (.receive id (w.elapsed id)))
      | .expired .. => driveCall k id errand fuel (w.act (.giveUp id))
      | .closing => driveCall k id errand fuel (w.act (.notify id))
      | .finished result =>
        let (report, entries) := reportOf errand result
        (w.logged entries).endJob k report
      | .dropped => w.endJob k .aborted

/-- The command of an errand that makes one. -/
def commandOf? : Errand → Option (String × List Arg)
  | .execute subcommand args => some (subcommand, args)
  | .perform op => some (op.subcommand, op.args)
  | .awaitConnection _ => none

/-- A call passes through a handful of phases in one turn. -/
def phaseLimit : Nat := 8

/-- The turn of a caller that waits for a connection. -/
def turnWaiter (w : Simulation) (k ms : Nat) (job : Job) : Simulation :=
  if w.state.connected then w.endJob k (.waited true)
  else
    let deadline := job.deadline.getD (w.now + ms)
    if deadline ≤ w.now then w.endJob k (.waited false)
    else w.onJob k fun j => { j with deadline := some deadline }

/-- A caller asks for the lock, with a call of its own. -/
def makeCall (w : Simulation) (k : Nat) (subcommand : String) (args : List Arg) : Simulation :=
  (w.act (.call subcommand args)).onJob k fun j => { j with call := some w.state.calls.length }

/-- The turn of a caller. -/
def turnJob (w : Simulation) (k : Nat) : Simulation :=
  match w.jobs[k]? with
  | none => w
  | some job =>
    if job.report.isSome then w
    else if job.doomed then
      let w := match job.call with
        | some id => w.act (.drop id)
        | none => w
      w.endJob k .aborted
    else
      match job.errand, commandOf? job.errand with
      | .awaitConnection ms, _ => w.turnWaiter k ms job
      | _, none => w
      | errand, some (subcommand, args) =>
        match job.call with
        | some id => driveCall k id errand phaseLimit w
        | none =>
          driveCall k w.state.calls.length errand phaseLimit (w.makeCall k subcommand args)

/-! ### Turns of the worker -/

/-- The worker has a connection; a scripted daemon, if there is one, takes the other end. -/
def connect (w : Simulation) : Simulation :=
  let conn := w.state.conns.length
  let w := { w with dialling := .no }.act .connect
  if w.script.isSome then { w with links := w.links ++ [{ conn := conn }] } else w

/-- Whether there is a line that the worker can read. -/
def hasLine (w : Simulation) (conn : Nat) : Bool :=
  match w.state.conns[conn]? with
  | some c => (takeLine? w.setup.config.framing.terminator c.inbox).isSome
  | none => false

/-- Whether the worker can find the end of a connection. -/
def hasEnded (w : Simulation) (conn : Nat) : Bool :=
  (w.state.conns[conn]?.map (·.ended)).getD false

/-- Whether the worker can be told to stop where it is. -/
def canStop : Worker → Bool
  | .connecting | .installing _ | .reading _ | .sleeping => true
  | _ => false

/-- The worker's next action, if it need not wait. -/
def nextAction? (w : Simulation) : Option Action :=
  if w.state.stopping && canStop w.state.worker then some .stop
  else
    match w.state.worker with
    | .idle => some .start
    | .connecting =>
      match w.dialling with
      | .answered => some .connect
      | .underway => none
      | .no => w.socket.failure?.map .connectFails
    | .installing _ => if w.state.lock.holder = some .worker then some .install else none
    | .opening _ => some .open
    | .reading conn =>
      if w.state.resync then some .resync
      else if w.hasLine conn then some .readLine
      else if w.hasEnded conn then some .readEnd
      else none
    | .disconnecting _ => if w.state.lock.holder = some .worker then some .disconnect else none
    | .sleeping => if w.isDue w.sleepUntil then some .wake else none
    | .stopped => none

/-- The simulation after an action of the worker. -/
def actWorker (w : Simulation) : Action → Simulation
  | .connect => w.connect
  | .disconnect =>
    let w := w.act .disconnect
    { w with sleepUntil := some (w.now + w.setup.config.reconnectDelay.millis) }
  | .stop => { w with dialling := .no }.act .stop
  | a => w.act a

/-- Where the worker waits for a connection that it has just asked for, it has asked. -/
def dial (w : Simulation) : Simulation :=
  if w.state.worker = .connecting && w.dialling = .no then { w with dialling := .underway } else w

/-- The turn of the worker: it goes on until it has to wait. -/
def turnWorker : (fuel : Nat) → Simulation → Simulation
  | 0, w => w
  | fuel + 1, w =>
    match w.nextAction? with
    | some a => turnWorker fuel (w.actWorker a)
    | none => w.dial

/-- Each line takes one action, and there are a few others between them. -/
def workerLimit (w : Simulation) : Nat := (w.state.conns.map (·.inbox.length)).foldl (· + ·) 16

/-! ### Turns of the daemon -/

/-- Whether nobody on this side uses a connection any more. -/
def isClosed (w : Simulation) (conn : Nat) : Bool :=
  match w.state.conns[conn]? with
  | some c => c.sealed && c.abandoned
  | none => true

/-- The bytes of a line as the daemon writes them. -/
def lineBytes (w : Simulation) (text : String) : List UInt8 :=
  Utf8.ofString text ++ [w.wire.framing.terminator]

/-- A far end writes a line; where it cannot, it goes away. -/
def writeLine (w : Simulation) (k : Nat) (link : Link) (text : String) : Simulation :=
  if link.isShut || w.isClosed link.conn then w.onLink k fun l => { l with isAlive := false }
  else w.act (.deliver link.conn (w.lineBytes text))

/-- A far end closes its writing side. Once it is not among the others any more, nothing of it is
left. -/
def shutLink (w : Simulation) (k : Nat) (link : Link) : Simulation :=
  let w := w.onLink k fun l => { l with isAlive := false, isShut := true }
  w.act (if link.isListed then .finish link.conn else .breakOff link.conn)

/-- A far end does one of the things it has to do. -/
def react (w : Simulation) (k : Nat) (link : Link) : Reaction → Simulation
  | .pause ms => w.onLink k fun l => { l with wakeAt := some (w.now + ms) }
  | .hangUp => w.shutLink k link
  | .line text => w.writeLine k link text
  | .reply code text => w.writeLine k link (replyLine code link.seq text)

/-- A far end reads a line. -/
def takeCommand (w : Simulation) (k count : Nat) (line : List UInt8) : Simulation :=
  let w := w.onLink k fun l => { l with consumed := l.consumed + count }
  match readCommand w.wire.numbered line with
  | none => w
  | some command =>
    let w := { w with received := w.received ++ [command] }
    let reactions := Script.reactions (w.script.getD []) command w.received.length
    w.onLink k fun l => { l with reactions, seq := command.seq }

/-- What a far end can read: a line and how many bytes it takes up. The last line of a connection
that is closed need not be ended. -/
def readable? (w : Simulation) (link : Link) : Option (List UInt8 × Nat) :=
  let bytes := w.unread link
  match takeLine? w.wire.framing.terminator bytes with
  | some (line, _) => some (line, line.length + 1)
  | none =>
    if (w.state.conns[link.conn]?.map (·.sealed)).getD true && !bytes.isEmpty then
      some (bytes, bytes.length)
    else none

/-- The turn of a far end: it goes on until it has to wait. -/
def turnLink (k : Nat) : (fuel : Nat) → Simulation → Simulation
  | 0, w => w
  | fuel + 1, w =>
    match w.links[k]? with
    | none => w
    | some link =>
      if !link.isAlive || (link.wakeAt.isSome && !w.isDue link.wakeAt) then w
      else
        match link.reactions with
        | r :: rs =>
          let w := w.onLink k fun l => { l with reactions := rs, wakeAt := none }
          turnLink k fuel (w.react k link r)
        | [] =>
          let w := w.onLink k fun l => { l with wakeAt := none }
          match w.readable? link with
          | some (line, count) => turnLink k fuel (w.takeCommand k count line)
          | none =>
            if (w.state.conns[link.conn]?.map (·.sealed)).getD true then
              w.onLink k fun l => { l with isAlive := false }
            else w

/-- Every command takes up bytes, and a rule has so many reactions at most. -/
def linkLimit (w : Simulation) : Nat :=
  let most := ((w.script.getD []).map (·.reactions.length)).foldl max 1
  ((w.state.conns.map (·.written.length)).foldl (· + ·) 2) * (most + 2)

/-! ### All turns -/

/-- The turn of a task. -/
def turn (w : Simulation) : Task → Simulation
  | .job k => w.turnJob k
  | .worker => turnWorker w.workerLimit w
  | .link k => turnLink k w.linkLimit w

/-- Whether the worker can read something that has arrived. -/
def workerHears (w : Simulation) : Bool :=
  match w.state.worker with
  | .connecting => w.dialling = .underway
  | .reading conn => w.hasLine conn || w.hasEnded conn
  | _ => false

/-- Whether a far end can read something that has arrived. -/
def linkHears (w : Simulation) (link : Link) : Bool :=
  Link.isReading link &&
    ((w.readable? link).isSome || (w.state.conns[link.conn]?.map (·.sealed)).getD true)

/-- A caller in the middle of writing that can go on has something to do. -/
def wakeWriter (w : Simulation) : Simulation :=
  match w.writer? with
  | some id => w.wakeCall id
  | none => w

/-- Connections come about, what has been sent becomes readable, and what has been read makes
room. -/
def exchange (w : Simulation) : Simulation :=
  let w := if w.workerHears then wake { w with dialling := w.dialling.heard } .worker else w
  let w := w.wakeWriter
  (w.links.zipIdx.filter fun (link, _) => w.linkHears link).foldl (fun w (_, k) => w.wake (.link k)) w

/-- All tasks take turns until none has anything left to do. -/
def settleWithin : (fuel : Nat) → Simulation → Simulation
  | 0, w => w
  | fuel + 1, w =>
    match w.ready with
    | t :: ts => settleWithin fuel (turn { w with ready := ts } t)
    | [] =>
      let w := w.exchange
      if w.ready.isEmpty then w else settleWithin fuel w

/-- More turns than tasks take before they wait for the clock. -/
def turnLimit : Nat := 1000000

/-- All tasks take turns until none has anything left to do. Each that has something to do now takes
a turn at least. -/
def settle (w : Simulation) : Simulation := settleWithin (turnLimit + w.ready.length) w

/-! ### The clock -/

/-- The tasks that wait for the clock, and until when. -/
def timers (w : Simulation) : List (Nat × Task) :=
  let jobs := w.jobs.zipIdx.filterMap fun (j, k) =>
    if j.report.isSome then none else j.deadline.map fun t => (t, Task.job k)
  let worker := if w.state.worker = .sleeping then
      w.sleepUntil.toList.map fun t => (t, Task.worker)
    else []
  let links := w.links.zipIdx.filterMap fun (l, k) =>
    if l.isAlive then l.wakeAt.map fun t => (t, Task.link k) else none
  jobs ++ worker ++ links

/-- The tasks whose time has come, the earliest first. -/
def dueTasks (w : Simulation) : List Task :=
  ((w.timers.filter fun (t, _) => t ≤ w.now).mergeSort fun a b => a.1 ≤ b.1).map (·.2)

/-- The clock moves on at once, and everyone whose time has come takes a turn. -/
def jump (w : Simulation) (ms : Nat) : Simulation :=
  let w := { w with now := w.now + ms }.exchange
  w.dueTasks.foldl wake w

/-- The clock moves on, and all tasks take turns. -/
def advance (w : Simulation) (ms : Nat) : Simulation := (w.jump ms).settle

/-! ### From outside -/

/-- A new caller, and its number. -/
def spawn (w : Simulation) (errand : Errand) : Simulation × Nat :=
  (wake { w with jobs := w.jobs ++ [{ errand := errand }] } (.job w.jobs.length), w.jobs.length)

/-- A caller is sent away. -/
def abort (w : Simulation) (k : Nat) : Simulation :=
  match w.jobs[k]? with
  | some { report := none, .. } => (w.onJob k fun j => { j with doomed := true }).wake (.job k)
  | _ => w

/-- The worker starts. -/
def start (w : Simulation) : Simulation := { w with isStarted := true }.wake .worker

/-- The worker is asked to stop, if it has started. -/
def shutDown (w : Simulation) : Simulation :=
  if w.isStarted then (w.act .signal).wake .worker else w

/-- The report of a caller. -/
def report? (w : Simulation) (k : Nat) : Option Report := (w.jobs[k]?).bind (·.report)

/-- How far the clock moves on at a time while somebody waits, in milliseconds. -/
def tick : Nat := 50

/-- More ticks than anyone waits for. -/
def endless : Nat := UInt64.size

/-- The clock ticks until a caller has reported, or nothing is left that waits for the clock, or so
many ticks have gone by. -/
def waitFor (k : Nat) : (ticks : Nat) → Simulation → Simulation
  | 0, w => w
  | ticks + 1, w =>
    if (w.report? k).isSome || w.timers.isEmpty then w else waitFor k ticks (w.advance tick)

end Simulation
end EfsControl
