/-
# Pairing replies with calls

Calls wait in a queue, in the order in which they were registered. A reply
with a number completes the first call that has the number; a reply without
one completes the oldest call. When a call without a number is given up, the
next final reply is its own and reaches nobody. Closing fails every call.

The type of callers is a parameter: a caller is whatever the answer goes to.

Key definitions: `Pending`, `Correlator`, `opened`, `closed`, `register`,
`cancel`, `dispatch`.
-/
import EfsControl.Log

namespace EfsControl

/-- A call that waits for its reply. -/
structure Pending (κ : Type) where
  seq : Option UInt32
  /-- The messages of the lines that have come so far. -/
  continuations : List String := []
  caller : κ
  deriving DecidableEq

/-- The calls that wait for replies on one connection. -/
structure Correlator (κ : Type) where
  /-- Whether new calls are taken. -/
  isOpen : Bool := false
  pending : List (Pending κ) := []
  /-- How many replies without a number belong to calls that were given up. -/
  stale : Nat := 0
  deriving DecidableEq

/-- What becomes of a reply. -/
inductive Routed (κ : Type)
  /-- It ends the call of the caller, with the reply that the caller gets. -/
  | completed (caller : κ) (reply : Reply)
  /-- It is kept with a call that goes on waiting. -/
  | continued
  /-- It answers a call that was given up. -/
  | stale
  | unmatched
  deriving DecidableEq

namespace Correlator

variable {κ : Type}

/-- The call that a reply with this number is for, between the calls before and after it. -/
def locate (seq : Option UInt32) :
    List (Pending κ) → Option (List (Pending κ) × Pending κ × List (Pending κ))
  | [] => none
  | p :: ps =>
    if seq.isNone || p.seq == seq then some ([], p, ps)
    else (locate seq ps).map fun (before, q, after) => (p :: before, q, after)

/-- Takes calls from now on. Calls that wait already are kept. -/
def opened (c : Correlator κ) : Correlator κ := { c with isOpen := true, stale := 0 }

/-- Takes no calls from now on; nobody waits any longer. -/
def closed (_ : Correlator κ) : Correlator κ := {}

/-- The callers that closing fails, oldest first. -/
def callers (c : Correlator κ) : List κ := c.pending.map (·.caller)

/-- A new call at the end of the queue, unless calls are refused. -/
def register (c : Correlator κ) (seq : Option UInt32) (caller : κ) : Option (Correlator κ) :=
  if c.isOpen then some { c with pending := c.pending ++ [⟨seq, [], caller⟩] } else none

/-- Gives up the call with this number, or the oldest one; and the caller that is given up. Without
a number a reply is still to come for it. -/
def cancel (c : Correlator κ) (seq : Option UInt32) : Correlator κ × Option κ :=
  match locate seq c.pending with
  | none => (c, none)
  | some (before, p, after) =>
    ({ c with
        pending := before ++ after
        stale := if seq.isNone then c.stale + 1 else c.stale }, some p.caller)

/-- Gives a reply to the call that it is for. -/
def dispatch (c : Correlator κ) (reply : Reply) : Correlator κ × Routed κ :=
  if reply.seq.isNone && 0 < c.stale then
    (if reply.isFinal then { c with stale := c.stale - 1 } else c, .stale)
  else
    match locate reply.seq c.pending with
    | none => (c, .unmatched)
    | some (before, p, after) =>
      if reply.isFinal then
        ({ c with pending := before ++ after },
          .completed p.caller { reply with continuations := p.continuations })
      else
        let p := { p with continuations := p.continuations ++ [reply.message] }
        ({ c with pending := before ++ p :: after }, .continued)

end Correlator

namespace Routed

variable {κ : Type}

/-- The name of what became of a reply. -/
def name : Routed κ → String
  | completed .. => "Completed"
  | continued => "Continued"
  | stale => "Stale"
  | unmatched => "Unmatched"

/-- What is logged about a reply, by whether its caller still listens. -/
def log (listens : κ → Bool) (reply : Reply) : Routed κ → List LogEntry
  | completed caller _ => if listens caller then [] else [.callerGone]
  | continued => []
  | stale => [.droppedStale reply.code]
  | unmatched => [.unmatched reply.code reply.seq]

end Routed
end EfsControl
