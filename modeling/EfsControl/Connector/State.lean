/-
# The state of the connection to the daemon

Any number of callers share one connection, which one worker opens, reads and
closes. Whoever holds the exchange lock may use the writing side of the
connection; a caller keeps the lock until its reply has come. The lock goes to
those who wait for it in the order in which they came, at the moment in which
it is given back.

Key definitions: `Lock`, `Call`, `Connection`, `Worker`, `State`.
-/
import EfsControl.Config
import EfsControl.Correlator
import EfsControl.Outcome.Decode

namespace EfsControl
namespace Connector

/-- Someone who may hold the exchange lock: a caller, by the number of the call, or the worker. -/
inductive Party
  | call (id : Nat)
  | worker
  deriving DecidableEq

/-- The exchange lock: who holds it, and who waits for it. -/
structure Lock where
  holder : Option Party := none
  queue : List Party := []
  deriving DecidableEq

namespace Lock

/-- Someone asks for the lock and has it at once if it is free. -/
def request (l : Lock) (p : Party) : Lock :=
  match l.holder with
  | none => { l with holder := some p }
  | some _ => { l with queue := l.queue ++ [p] }

/-- The lock is given back, and goes to the first who waits. -/
def release (l : Lock) : Lock :=
  match l.queue with
  | [] => {}
  | p :: ps => ⟨some p, ps⟩

/-- Someone gives up the lock, or waiting for it. -/
def leave (l : Lock) (p : Party) : Lock :=
  if l.holder = some p then l.release else { l with queue := l.queue.filter (· != p) }

end Lock

/-- What a caller knows of its reply. -/
inductive Slot
  | waiting
  | answered (result : ExchangeResult)
  /-- Nobody will answer any more. -/
  | severed

/-- How far a call is. -/
inductive Phase
  /-- It waits for the lock, or has just got it. -/
  | queued
  /-- Its command is being written to the connection; `rest` is not written yet. -/
  | writing (seq : Option UInt32) (conn : Nat) (rest : List UInt8)
  /-- Its command is written. -/
  | awaiting (seq : Option UInt32) (conn : Nat)
  /-- Its time is up, and it has not yet given up its place among the pending calls. -/
  | expired (seq : Option UInt32) (conn : Nat)
  /-- It went unanswered and, having no number, has closed the connection behind it. -/
  | closing
  | finished (result : ExchangeResult)
  /-- The caller went away before the end. -/
  | dropped

/-- A call. -/
structure Call where
  subcommand : String
  args : List Arg
  phase : Phase := .queued
  slot : Slot := .waiting

/-- Whether a call listens for a reply. -/
def Call.listens (c : Call) : Bool :=
  match c.phase with
  | .writing .. | .awaiting .. => true
  | _ => false

/-- A connection to the daemon. -/
structure Connection where
  /-- The bytes that have arrived and are not read yet. -/
  inbox : List UInt8 := []
  /-- Whether nothing more will arrive. -/
  ended : Bool := false
  /-- Whether writing fails. -/
  broken : Bool := false
  /-- The bytes that have been written. -/
  written : List UInt8 := []
  /-- Whether the writing side has been closed. -/
  sealed : Bool := false
  /-- Whether nobody reads it any more. -/
  abandoned : Bool := false
  deriving DecidableEq

/-- What the worker is doing. -/
inductive Worker
  | idle
  | connecting
  /-- It has a connection and waits for the lock to hand it over. -/
  | installing (conn : Nat)
  /-- It has handed its connection over; calls are not taken yet. -/
  | opening (conn : Nat)
  | reading (conn : Nat)
  /-- The connection is over and it waits for the lock to take it away, for good if `final`. -/
  | disconnecting (final : Bool)
  | sleeping
  | stopped
  deriving DecidableEq

/-- Everything that callers and the worker share. -/
structure State where
  lock : Lock := {}
  /-- The connection that whoever holds the lock may write to. -/
  writer : Option Nat := none
  correlator : Correlator Nat := {}
  nextSeq : UInt32 := 1
  connected : Bool := false
  /-- Whether the worker has been asked to give up its connection. -/
  resync : Bool := false
  worker : Worker := .idle
  /-- Whether the worker has been asked to stop. -/
  stopping : Bool := false
  calls : List Call := []
  conns : List Connection := []

/-- How the connector is set up: its configuration, and what the receiver that is told of
connections and events does. -/
structure Setup where
  config : DaemonConfig
  /-- Which events the receiver takes care of. -/
  handles : Event → Bool := fun _ => true
  /-- What the receiver logs when it is told of a connection. -/
  greeting : List LogEntry := []
  /-- What the receiver logs about an event. -/
  remarks : Event → List LogEntry := fun _ => []

namespace Setup

/-- The service itself is the receiver, and logs everything that it is told. -/
def ofService (config : DaemonConfig) : Setup :=
  { config, greeting := [.greeted], remarks := fun e => [.noticed e] }

/-- There is no receiver. -/
def ofNobody (config : DaemonConfig) : Setup := { config, handles := fun _ => false }

end Setup

namespace State

/-- The state after a change to one call. -/
def onCall (s : State) (id : Nat) (f : Call → Call) : State :=
  { s with calls := s.calls.modify id f }

/-- The state after a change to one connection. -/
def onConn (s : State) (c : Nat) (f : Connection → Connection) : State :=
  { s with conns := s.conns.modify c f }

/-- Whether the call with this number listens for a reply. -/
def listens (s : State) (id : Nat) : Bool := (s.calls[id]?.map Call.listens).getD false

/-- Gives callers something to find in their slots. -/
def fill (s : State) (slot : Slot) (ids : List Nat) : State :=
  { s with calls := s.calls.mapIdx fun id c => if id ∈ ids then { c with slot } else c }

/-- Closes the writing side of a connection. -/
def sealConn (s : State) (c : Nat) : State := s.onConn c fun conn => { conn with sealed := true }

/-- Stops reading a connection. -/
def abandonConn (s : State) (c : Nat) : State :=
  s.onConn c fun conn => { conn with abandoned := true }

end State
end Connector
end EfsControl
