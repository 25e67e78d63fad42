/-
# Requests to the service

A request is handled by the service that the connector belongs to. Where it is
one for an operation, the operation is performed before it is answered.

Key definitions: `Simulation.serve`, `Simulation.Served`.
-/
import EfsControl.Http.Router
import EfsControl.Simulation.Service

namespace EfsControl
namespace Simulation

/-- What a request has come to. -/
structure Served where
  /-- The response, unless the client has gone away before. -/
  response : Option Http.Response
  /-- Whether the service is asked to stop. -/
  stops : Bool := false

/-- What the service says of itself. -/
def view (w : Simulation) (config : AppConfig) : Http.ServiceView :=
  { config, connected := w.state.connected }

/-- A request is made by a client who waits for so many ticks. -/
def serve (w : Simulation) (config : AppConfig) (r : Http.Request) (patience : Nat := endless) :
    Simulation × Served :=
  match Http.handle (w.view config) r with
  | .answer response => (w, { response := some response })
  | .stop response => (w, { response := some response, stops := true })
  | .perform op =>
    let (w, code?) := w.performOne op patience
    (w, { response := code?.map Http.resultResponse })

end Simulation
end EfsControl
