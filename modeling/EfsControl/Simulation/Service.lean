/-
# The service against a scripted daemon

The worker is connected to a daemon that follows a script. Operations are
performed one after the other. While one waits, the clock ticks, for as long as
whoever has asked for it is there.

Key definitions: `Simulation.ofDaemon`, `Simulation.performOne`, `emit`,
`disconnectAll`.
-/
import EfsControl.Simulation.Basic

namespace EfsControl
namespace Simulation

/-- The connector and a daemon with a script, connected if the worker can connect. -/
def ofDaemon (config : DaemonConfig) (script : Option Script) : Simulation :=
  (Simulation.ofSetup (.ofService config) script
    (if script.isSome then .listening else .absent)).start.settle

/-- An operation has been asked for by a new caller, who has reported or waits no longer; and the
number of the caller. -/
def awaitOne (w : Simulation) (op : Operation) (patience : Nat) : Simulation × Nat :=
  let (w, k) := w.spawn (.perform op)
  (waitFor k patience w.settle, k)

/-- An operation is performed: its result code, unless whoever asks for it has gone away before.
There is no limit to how long it may take; `patience` tells for how many ticks the one who asks is
there. -/
def performOne (w : Simulation) (op : Operation) (patience : Nat := endless) :
    Simulation × Option Int32 :=
  let (w, k) := w.awaitOne op patience
  match w.report? k with
  | some (.coded code) => (w, some code)
  | _ => ((w.abort k).settle, none)

/-- The clock moves on in steps. -/
def advanceBy (ms : Nat) : (steps : Nat) → Simulation → Simulation
  | 0, w => w
  | steps + 1, w => advanceBy ms steps (w.advance ms)

/-- The far ends that are written to and closed together. -/
def listed (w : Simulation) : List (Nat × Link) :=
  w.links.zipIdx.filterMap fun (l, k) => if l.isListed then some (k, l) else none

/-- The daemon writes a line to every connection. -/
def emit (w : Simulation) (text : String) : Simulation :=
  (w.listed.foldl (fun w (_, l) =>
    if l.isShut || w.isClosed l.conn then w else w.act (.deliver l.conn (w.lineBytes text))) w).settle

/-- The daemon closes its writing side of every connection. -/
def disconnectAll (w : Simulation) : Simulation :=
  (w.listed.foldl (fun w (k, l) =>
    (w.onLink k fun l => { l with isShut := true, isListed := false }).act (.finish l.conn)) w).settle

end Simulation
end EfsControl
