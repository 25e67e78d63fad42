/-
# An operation comes through a request

The paths and methods that the client uses are those of the service's routes,
each for what the client asks for. The body that asks for an operation is read
as this operation by the endpoint of its route, and the code in the response
is read as the code. So what is performed for the request of a client is what
the client asks for.

Key definition: `Client.Call.endpoint`.
Key theorems: `Http.mem_routes_iff`, `OperationKind.readBody_writeBody`,
`Http.handle_perform`, `Client.read_resultResponse`.
-/
import EfsControl.Client
import EfsControl.Proofs.Http.Handling

namespace EfsControl

open Client (Call)

/-- What the client asks for, as the service knows it. -/
def Client.Call.endpoint : Call → Http.Endpoint
  | health => .health
  | status => .status
  | stop => .stop
  | config => .config
  | perform op => .operation op.kind

/-- The body of an operation is read as the operation. -/
theorem OperationKind.readBody_writeBody (op : Operation) :
    op.kind.readBody (Utf8.ofString op.writeBody) = .ok op := by
  cases op <;>
    simp only [Operation.kind, readBody, Operation.writeBody, Message.readBytes_write, bind,
      Except.bind] <;>
    rfl

namespace Http

/-- A target that is the path of a route names this path. -/
theorem path_of_target {r : Request} (h : r.target ∈ routes.map (·.path)) : r.path = r.target := by
  have hall : ∀ t ∈ routes.map (·.path), Request.path { method := .get, target := t } = t := by
    decide +kernel
  exact hall _ h

/-- The service has a route for whatever a client asks for. -/
theorem call_mem_routes (c : Call) : ⟨c.path, c.method, c.endpoint⟩ ∈ routes := by
  cases c with
  | perform op => cases op <;> simp [routes, Call.path, Call.method, Call.endpoint, Operation.kind]
  | health | status | stop | config => simp [routes, Call.path, Call.method, Call.endpoint]

/-- A client asks with the path of a route, and nothing else. -/
theorem path_request (c : Call) : c.request.path = c.path :=
  path_of_target (List.mem_map.mpr ⟨_, call_mem_routes c, rfl⟩)

/-- Clients can ask for everything there is. -/
theorem exists_endpoint (e : Endpoint) : ∃ c : Call, c.endpoint = e := by
  have hkind : ∀ kind : OperationKind, ∃ op : Operation, op.kind = kind := by
    intro kind
    cases kind
    exacts [⟨.createStorage "" ⟨""⟩, rfl⟩, ⟨.unlockStorage "" ⟨""⟩, rfl⟩, ⟨.lockStorage "", rfl⟩,
      ⟨.changeStoragePassword "" ⟨""⟩ ⟨""⟩, rfl⟩, ⟨.removeStorage "", rfl⟩, ⟨.storageStat "", rfl⟩,
      ⟨.recoverAndRemoveStorage "" ⟨""⟩, rfl⟩, ⟨.encryptionProgress "", rfl⟩,
      ⟨.encryptUserData 0 ⟨""⟩, rfl⟩, ⟨.unlockUserData 0 false ⟨""⟩, rfl⟩, ⟨.lockUserData 0, rfl⟩,
      ⟨.changeUserDataPassword 0 ⟨""⟩ ⟨""⟩, rfl⟩, ⟨.removeUserEncryptedData 0, rfl⟩,
      ⟨.userDataStat 0, rfl⟩, ⟨.decryptUserData 0 ⟨""⟩, rfl⟩]
  cases e with
  | health => exact ⟨.health, rfl⟩
  | status => exact ⟨.status, rfl⟩
  | stop => exact ⟨.stop, rfl⟩
  | config => exact ⟨.config, rfl⟩
  | operation kind =>
    obtain ⟨op, rfl⟩ := hkind kind
    exact ⟨.perform op, rfl⟩

/-- **The service and its clients agree.** The routes are the paths and the methods of the requests
that a client can make, each with what the client asks for. -/
theorem mem_routes_iff {route : Route} :
    route ∈ routes ↔ ∃ c : Call, route = ⟨c.request.path, c.request.method, c.endpoint⟩ := by
  constructor
  · intro h
    obtain ⟨c, hc⟩ := exists_endpoint route.endpoint
    have honce : ∀ x ∈ routes, ∀ y ∈ routes, x.endpoint = y.endpoint → x = y := by decide +kernel
    refine ⟨c, ?_⟩
    rw [path_request]
    exact honce _ h _ (call_mem_routes c) hc.symm
  · rintro ⟨c, rfl⟩
    rw [path_request]
    exact call_mem_routes c

/-- A request for an operation whose body is not too long has it performed, as it is. -/
theorem handle_perform (s : ServiceView) {op : Operation}
    (h : (Utf8.ofString op.writeBody).length ≤ bodyLimit) :
    handle s (Call.perform op).request = .perform op := by
  have hjson : announcesJson (some "application/json") = true := by decide +kernel
  obtain ⟨m, hm, hop⟩ :=
    OperationKind.readBody_eq_ok_iff.mp (OperationKind.readBody_writeBody op)
  exact handle_eq_perform_iff.mpr
    ⟨op.kind, m, mem_routes_iff.mpr ⟨.perform op, rfl⟩, hjson, h, hm, hop⟩

end Http

/-- The code of an operation is read from its response. -/
theorem Client.read_resultResponse (op : Operation) (code : Int32) :
    (Call.perform op).read (answerOf (Http.resultResponse code)) = .ok code := by
  have hbody : successBody (answerOf (Http.resultResponse code)) =
      .ok (Utf8.ofString (Message.write (ResultResponse.mk code))) := rfl
  simp only [Call.read, readMessage, hbody, bind, Except.bind, Message.readBytes_write]
  rfl

end EfsControl
