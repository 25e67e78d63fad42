/-
# What becomes of the calls

The calls that a correlator takes are numbered in the order in which they are
registered. At each moment a call waits, or has one final fate: a reply, the
end of the connection, or to be given up. A caller may stop listening; its
call is not affected.

Key definitions: `Fate`, `Correlator.Op`, `History`, `History.step`.
-/
import EfsControl.Correlator

namespace EfsControl

/-- What has become of a call. -/
inductive Fate
  | waiting
  | replied (reply : Reply)
  | lost
  | givenUp
  deriving DecidableEq

namespace Correlator

/-- Something that is done to a correlator. -/
inductive Op
  | opening
  | closing
  | register (seq : Option UInt32)
  | cancel (seq : Option UInt32)
  /-- The caller with this number stops listening. -/
  | forget (call : Nat)
  | dispatch (reply : Reply)
  deriving DecidableEq

/-- What the one who does it is told. -/
inductive Answer
  | done
  | refused
  | routed (r : Routed Nat)
  deriving DecidableEq

end Correlator

/-- A correlator with the calls it has taken since the beginning. -/
structure History where
  correlator : Correlator Nat := {}
  /-- What has become of each call, in the order of registration. -/
  fates : List Fate := []
  /-- The calls whose callers have stopped listening. -/
  deaf : List Nat := []

namespace History

open Correlator (Op Answer)

/-- The fates after the calls in the list have met theirs. -/
def settle (fate : Fate) (calls : List Nat) (fates : List Fate) : List Fate :=
  calls.foldl (fun fs call => fs.set call fate) fates

/-- Whether the caller of a call still listens. -/
def listens (h : History) (call : Nat) : Bool := !h.deaf.contains call

/-- One more thing done: what follows, what is answered and what is logged. -/
def step (h : History) : Op → History × Answer × List LogEntry
  | .opening => ({ h with correlator := h.correlator.opened }, .done, [])
  | .closing =>
    ({ h with
        correlator := h.correlator.closed
        fates := settle .lost h.correlator.callers h.fates }, .done, [])
  | .register seq =>
    match h.correlator.register seq h.fates.length with
    | none => (h, .refused, [])
    | some c => ({ h with correlator := c, fates := h.fates ++ [.waiting] }, .done, [])
  | .cancel seq =>
    let (c, caller) := h.correlator.cancel seq
    ({ h with correlator := c, fates := settle .givenUp caller.toList h.fates }, .done, [])
  | .forget call => ({ h with deaf := call :: h.deaf }, .done, [])
  | .dispatch reply =>
    let (c, routed) := h.correlator.dispatch reply
    let fates := match routed with
      | .completed call reply => settle (.replied reply) [call] h.fates
      | _ => h.fates
    ({ h with correlator := c, fates }, .routed routed, routed.log h.listens reply)

/-- The history after all these things. -/
def run (h : History) (ops : List Op) : History := ops.foldl (fun h op => (h.step op).1) h

end History
end EfsControl
