/-
# Steps of callers, worker and daemon

A call asks for the lock. With the lock it takes a number, writes its command
and waits; a reply, a failed write, the time limit or the end of the
connection ends it. A caller that goes away gives back the lock and leaves its
entry in the queue of pending calls. When a command without a number goes
unanswered, nothing tells to which command the next reply belongs, so the
caller closes the connection and the worker starts over.

The worker connects, hands the connection over under the lock, reads lines
until the connection is over, takes it away again under the lock, waits a
while, and begins again until it is asked to stop. All pending calls fail
before it asks for the lock.

Each action says what must hold for it to happen. `step` gives the state after
an action and what was noted on the way.

Key definitions: `Action`, `Note`, `step`, `run`.
-/
import EfsControl.Connector.State
import EfsControl.Lines
import EfsControl.Text.Blank

namespace EfsControl
namespace Connector

/-- What can happen. -/
inductive Action
  /-- A new call asks for the lock. -/
  | call (subcommand : String) (args : List Arg)
  /-- A call that has got the lock registers and starts to write. -/
  | begin (id : Nat)
  /-- Some of a command is written. -/
  | write (id count : Nat)
  | writeFails (id : Nat) (cause : String)
  /-- A caller finds its answer. It sees how long that has taken, by a clock of its own. -/
  | receive (id : Nat) (elapsed : Duration)
  /-- The time of a caller that has no answer is up. -/
  | timeout (id : Nat)
  /-- A caller whose time is up gives up its place among the pending calls. -/
  | giveUp (id : Nat)
  /-- A caller that has closed the connection tells the worker. -/
  | notify (id : Nat)
  /-- A caller goes away. -/
  | drop (id : Nat)
  | start
  | connect
  | connectFails (cause : String)
  /-- The worker has the lock and hands the connection over. -/
  | install
  /-- Calls are taken from now on. -/
  | open
  | readLine
  /-- The worker finds the end of the connection. -/
  | readEnd
  | readFails (cause : String)
  /-- The worker finds that it is to give up the connection. -/
  | resync
  /-- The worker has the lock and takes the connection away. -/
  | disconnect
  | wake
  /-- The worker is asked to stop. -/
  | signal
  /-- The worker finds that it is to stop. -/
  | stop
  /-- Bytes arrive from the daemon. -/
  | deliver (conn : Nat) (bytes : List UInt8)
  /-- The daemon closes its writing side. -/
  | finish (conn : Nat)
  /-- The daemon's end is gone: nothing arrives any more and writing fails. -/
  | breakOff (conn : Nat)

/-- What is noted about a step. -/
inductive Note
  | log (e : LogEntry)
  /-- A call has its number and is pending on a connection, where its command is to be written. -/
  | registered (id : Nat) (seq : Option UInt32) (conn : Nat) (command : EncodedCommand)
  | wrote (conn : Nat) (bytes : List UInt8)
  /-- The command of a call has been written in full. -/
  | sent (id conn : Nat)
  /-- A line has been read; those without text are not noted. -/
  | line (conn : Nat) (raw : String)
  /-- A reply has been given to the pending calls. -/
  | routed (conn : Nat) (reply : Reply) (r : Routed Nat)
  /-- An event has been passed on, to its receiver and to all subscribers. -/
  | event (e : Event)
  /-- The receiver of events has been told of a new connection. -/
  | online (conn : Nat)
  /-- Reading a connection is over. -/
  | ended (conn : Nat) (e : ExchangeError)
  | returned (id : Nat) (result : ExchangeResult)

/-- The state after a step, and what was noted. -/
abbrev Next := State × List Note

namespace State

/-- A call ends and gives back the lock. -/
def finish (s : State) (id : Nat) (result : ExchangeResult) : Next :=
  ({ s.onCall id (fun c => { c with phase := .finished result }) with lock := s.lock.release },
    [.returned id result])

/-- Gives up the pending call with a number, or the oldest one. If that was another call than `id`,
its caller finds that nobody will answer. -/
def cancel (s : State) (id : Nat) (seq : Option UInt32) : State :=
  let (c, caller) := s.correlator.cancel seq
  State.fill { s with correlator := c } .severed (caller.toList.filter (· != id))

end State

/-- Adds notes in front of those of a step. -/
def noting (notes : List Note) (next : Next) : Next := (next.1, notes ++ next.2)

/-! ### Callers -/

/-- The number of the next command, and the state after it has been taken. -/
def takeSeq (cfg : DaemonConfig) (s : State) : Option UInt32 × State :=
  if cfg.sequenceNumbers then (some s.nextSeq, { s with nextSeq := s.nextSeq + 1 }) else (none, s)

/-- A call that has got the lock registers and starts to write. -/
def beginCall (cfg : DaemonConfig) (s : State) (id : Nat) (call : Call) : Next :=
  match s.writer with
  | none => s.finish id (.error .notConnected)
  | some conn =>
    let (seq, s) := takeSeq cfg s
    match encode seq cfg.commandPrefix call.subcommand call.args with
    | .error e => s.finish id (.error (.encode e))
    | .ok command =>
      match s.correlator.register seq id with
      | none => s.finish id (.error .notConnected)
      | some c =>
        (State.onCall { s with correlator := c } id fun call =>
            { call with phase := .writing seq conn (command.frame cfg.framing) },
          [.registered id seq conn command, .log (.sent command)])

/-- The result that a caller makes of a reply: a failed command is an error. -/
def resultOf (reply : Reply) : ExchangeResult :=
  if reply.isFailure then .error (.daemon reply.code reply.message) else .ok reply

/-- What a caller logs about how long its answer has taken. -/
def slowLog (cfg : DaemonConfig) (subcommand : String) (elapsed : Duration) : List LogEntry :=
  if cfg.slowCommandThreshold < elapsed then [.slow subcommand elapsed] else []

/-- What a caller makes of what it finds. -/
def readSlot (s : State) (id : Nat) : Slot → Option Next
  | .waiting => none
  | .severed => some (s.finish id (.error .connectionLost))
  | .answered (.error e) => some (s.finish id (.error e))
  | .answered (.ok reply) => some (noting [.log (.received reply)] (s.finish id (resultOf reply)))

/-- A caller finds its answer. -/
def receiveAnswer (cfg : DaemonConfig) (s : State) (id : Nat) (call : Call) (elapsed : Duration) :
    Option Next :=
  (readSlot s id call.slot).map (noting ((slowLog cfg call.subcommand elapsed).map .log))

/-- A caller gives up a command that has gone unanswered. -/
def giveUpCall (s : State) (id : Nat) (subcommand : String) (seq : Option UInt32) (limit : Duration) :
    Next :=
  let s := s.cancel id seq
  noting [.log (.timedOut subcommand seq limit)] <|
    match seq, s.writer with
    | some _, _ => s.finish id (.error (.timeout limit))
    | none, none => State.finish { s with connected := false } id (.error (.timeout limit))
    | none, some conn =>
      let s := { s with connected := false, writer := none }
      ((s.sealConn conn).onCall id fun c => { c with phase := .closing }, [])

/-! ### The worker -/

/-- All pending calls fail, no new ones are taken, and the worker asks for the lock. -/
def State.tearDown (s : State) (final : Bool) : State :=
  let callers := s.correlator.callers
  let s := s.fill (.answered (.error .connectionLost)) callers
  { s with
    connected := false
    correlator := s.correlator.closed
    lock := s.lock.request .worker
    worker := .disconnecting final }

/-- The worker's connection, or its attempt to get one, is over. -/
def connectionEnds (s : State) (e : ExchangeError) : Next :=
  (s.tearDown false, [.log (.connectionEnded e)])

/-- The worker stops reading its connection. -/
def readingEnds (s : State) (conn : Nat) (e : ExchangeError) : Next :=
  noting [.ended conn e] (connectionEnds (s.abandonConn conn) e)

/-- The text of a line without the line ends at its end. Bytes that are no UTF-8 are replaced. -/
def lineText (bytes : List UInt8) : String :=
  String.ofList (Text.dropLineEnd (Utf8.decodeLossy bytes))

/-- A reply is given to the pending calls. -/
def routeReply (s : State) (conn : Nat) (raw : String) (reply : Reply) : Next :=
  let (c, routed) := s.correlator.dispatch reply
  let s' := { s with correlator := c }
  let notes := .routed conn reply routed :: (routed.log s.listens reply).map Note.log
  match routed with
  | .completed id answer => (s'.fill (.answered (.ok answer)) [id], notes)
  | .unmatched => (s', notes ++ [.log (.discarded raw)])
  | _ => (s', notes)

/-- What is logged about an event, by the worker and by the receiver that it tells. -/
def eventLog (setup : Setup) (e : Event) : List LogEntry :=
  .event e :: setup.remarks e ++ if setup.handles e then [] else [.unhandledEvent e]

/-- A line from the daemon. -/
def handleLine (setup : Setup) (s : State) (conn : Nat) (raw : String) : Next :=
  noting [.line conn raw] <|
    match parseLine raw setup.config.sequenceNumbers with
    | .ok (.reply reply) => routeReply s conn raw reply
    | .ok (.event e) => (s, (eventLog setup e).map .log ++ [.event e])
    | .error e => (s, [.log (.malformedLine e)])

/-- The worker reads the bytes of a line. One without text says nothing. -/
def readBytes (setup : Setup) (s : State) (conn : Nat) (bytes : List UInt8) : Next :=
  let raw := lineText bytes
  if raw.isEmpty then (s, []) else handleLine setup s conn raw

/-- The worker hands a connection over and gives back the lock. -/
def installConn (s : State) (conn : Nat) : State :=
  { s with writer := some conn, lock := s.lock.release, worker := .opening conn }

/-- Calls are taken, and the worker begins to read. -/
def openConn (setup : Setup) (s : State) (conn : Nat) : Next :=
  ({ s with
      correlator := s.correlator.opened
      connected := true
      worker := .reading conn },
    .log (.connected setup.config.socketPath) :: .online conn :: setup.greeting.map .log)

/-- The worker takes the connection away. -/
def removeConn (s : State) (final : Bool) : Next :=
  let s' : State := { s with
    writer := none
    lock := s.lock.release
    worker := if final then .stopped else .sleeping }
  (match s.writer with
    | some conn => s'.sealConn conn
    | none => s', if final then [.log .stopped] else [])

/-- The worker finds that it is to stop. -/
def stopWorker (s : State) : Worker → Option State
  | .connecting | .sleeping => some (s.tearDown true)
  | .installing conn =>
    let s := { s with lock := s.lock.leave .worker }
    some (((s.sealConn conn).abandonConn conn).tearDown true)
  | .reading conn => some ((s.abandonConn conn).tearDown true)
  | _ => none

/-! ### All together -/

/-- What follows an action, where it can happen. -/
def step (setup : Setup) (s : State) : Action → Option Next
  | .call subcommand args =>
    some ({ s with
      calls := s.calls ++ [{ subcommand := subcommand, args := args }]
      lock := s.lock.request (.call s.calls.length) }, [])
  | .begin id =>
    match s.calls[id]? with
    | some call =>
      match call.phase with
      | .queued =>
        if s.lock.holder = some (.call id) then some (beginCall setup.config s id call) else none
      | _ => none
    | none => none
  | .write id count =>
    match s.calls[id]? with
    | some { phase := .writing seq conn rest, .. } =>
      if ((s.conns[conn]?).map (·.broken)).getD true || count = 0 then none
      else
        let s := s.onConn conn fun c => { c with written := c.written ++ rest.take count }
        if rest.length ≤ count then
          some (s.onCall id fun c => { c with phase := .awaiting seq conn },
            [.wrote conn rest, .sent id conn])
        else
          some (s.onCall id fun c => { c with phase := .writing seq conn (rest.drop count) },
            [.wrote conn (rest.take count)])
    | _ => none
  | .writeFails id cause =>
    match s.calls[id]? with
    | some { phase := .writing seq _ _, subcommand, .. } =>
      some (noting [.log (.writeFailed cause subcommand)]
        ((s.cancel id seq).finish id (.error (.io cause))))
    | _ => none
  | .receive id elapsed =>
    match s.calls[id]? with
    | some call =>
      match call.phase with
      | .awaiting _ _ => receiveAnswer setup.config s id call elapsed
      | _ => none
    | none => none
  | .timeout id =>
    match s.calls[id]?, setup.config.commandTimeout with
    | some { phase := .awaiting seq conn, slot := .waiting, .. }, some _ =>
      some (s.onCall id fun c => { c with phase := .expired seq conn }, [])
    | _, _ => none
  | .giveUp id =>
    match s.calls[id]?, setup.config.commandTimeout with
    | some { phase := .expired seq _, subcommand, .. }, some limit =>
      some (giveUpCall s id subcommand seq limit)
    | _, _ => none
  | .notify id =>
    match s.calls[id]?, setup.config.commandTimeout with
    | some { phase := .closing, .. }, some limit =>
      some (State.finish { s with resync := true } id (.error (.timeout limit)))
    | _, _ => none
  | .drop id =>
    match s.calls[id]? with
    | some { phase := .expired .., .. } | some { phase := .finished _, .. }
    | some { phase := .dropped, .. } | none => none
    | some _ =>
      some (State.onCall { s with lock := s.lock.leave (.call id) } id fun c =>
        { c with phase := .dropped }, [])
  | .start =>
    if s.worker = .idle then
      some ({ s with worker := .connecting }, [.log (.started setup.config.socketPath)])
    else none
  | .connect =>
    if s.worker = .connecting then
      some ({ s with
        conns := s.conns ++ [{}]
        lock := s.lock.request .worker
        worker := .installing s.conns.length }, [])
    else none
  | .connectFails cause =>
    if s.worker = .connecting then
      some (connectionEnds s (.connect setup.config.socketPath cause))
    else none
  | .install =>
    match s.worker with
    | .installing conn =>
      if s.lock.holder = some .worker then some (installConn s conn, []) else none
    | _ => none
  | .open =>
    match s.worker with
    | .opening conn => some (openConn setup s conn)
    | _ => none
  | .readLine =>
    match s.worker with
    | .reading conn =>
      match (s.conns[conn]?).bind fun c => takeLine? setup.config.framing.terminator c.inbox with
      | some (bytes, rest) =>
        some (readBytes setup (s.onConn conn fun c => { c with inbox := rest }) conn bytes)
      | none => none
    | _ => none
  | .readEnd =>
    match s.worker with
    | .reading conn =>
      match s.conns[conn]? with
      | some c =>
        if c.ended && (takeLine? setup.config.framing.terminator c.inbox).isNone then
          some (readingEnds s conn .connectionLost)
        else none
      | none => none
    | _ => none
  | .readFails cause =>
    match s.worker with
    | .reading conn => some (readingEnds s conn (.io cause))
    | _ => none
  | .resync =>
    match s.worker with
    | .reading conn =>
      if s.resync then some (readingEnds { s with resync := false } conn .outOfSync) else none
    | _ => none
  | .disconnect =>
    match s.worker with
    | .disconnecting final =>
      if s.lock.holder = some .worker then some (removeConn s final) else none
    | _ => none
  | .wake => if s.worker = .sleeping then some ({ s with worker := .connecting }, []) else none
  | .signal => some ({ s with stopping := true }, [])
  | .stop => if s.stopping then (stopWorker s s.worker).map fun s => (s, []) else none
  | .deliver conn bytes =>
    match s.conns[conn]? with
    | some c =>
      if c.ended then none else some (s.onConn conn fun c => { c with inbox := c.inbox ++ bytes }, [])
    | none => none
  | .finish conn =>
    if conn < s.conns.length then some (s.onConn conn fun c => { c with ended := true }, []) else none
  | .breakOff conn =>
    if conn < s.conns.length then
      some (s.onConn conn fun c => { c with ended := true, broken := true }, [])
    else none

/-- The state after actions in a row, where all of them can happen, and all that was noted. -/
def run (setup : Setup) (s : State) : List Action → Option Next
  | [] => some (s, [])
  | a :: as =>
    match step setup s a with
    | none => none
    | some (s, notes) => (run setup s as).map (noting notes)

/-- The states that some actions lead to from the beginning. -/
def Reachable (setup : Setup) (s : State) : Prop := ∃ actions notes, run setup {} actions = some (s, notes)

end Connector
end EfsControl
