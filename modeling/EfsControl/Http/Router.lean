/-
# What the service does about a request

A request is answered at once, or it stops the service, or it is one for an
operation, which is performed and answered with its result code. Whatever is
wrong with a request is found before anything is done about it: an unknown
path, a method that does not fit, a body that is not announced as JSON, that
is too long, or that is not the description of an operation of that kind.

Key definitions: `Http.ServiceView`, `Http.Handling`, `Http.handle`,
`Http.resultResponse`.
-/
import EfsControl.Config.Write
import EfsControl.Http.Endpoint
import EfsControl.Http.MediaType

namespace EfsControl
namespace Http

open Json (Fault)

/-- Which service it is. -/
structure Build where
  version : String := "0.1.0"
  gitHash : String := "unknown"
  profile : String := "release"
  deriving DecidableEq

/-- The version with the particulars of the build. -/
def Build.describe (b : Build) : String := b.version ++ " (" ++ b.gitHash ++ ", " ++ b.profile ++ ")"

/-- What the service says of itself. -/
structure ServiceView where
  build : Build := {}
  config : AppConfig := {}
  connected : Bool := false
  uptimeSecs : UInt64 := 0
  pid : UInt32 := 0

/-- What is done about a request. -/
inductive Handling
  /-- It is answered, and nothing else happens. -/
  | answer (r : Response)
  /-- It is answered, and the service stops. -/
  | stop (r : Response)
  /-- An operation is performed and answered with its result code. -/
  | perform (op : Operation)
  deriving DecidableEq

/-- The response that carries a message. -/
def respond {α : Type} [Message α] (m : α) : Response :=
  { status := Status.ok, json? := some (Message.write m) }

/-- The response to an operation with a result code. -/
def resultResponse (code : Int32) : Response := respond (ResultResponse.mk code)

/-- The longest body that is read. -/
def bodyLimit : Nat := 2097152

/-- The status for a body that is not the description of an operation. -/
def faultStatus : Fault → Nat
  | .malformed | .truncated => Status.badRequest
  | .mismatched => Status.unprocessable

/-- What is done about a request for an operation. -/
def handleOperation (kind : OperationKind) (r : Request) : Handling :=
  if !announcesJson r.contentType then .answer (.ofStatus Status.unsupportedMediaType)
  else if bodyLimit < r.body.length then .answer (.ofStatus Status.tooLarge)
  else
    match kind.readBody r.body with
    | .ok op => .perform op
    | .error fault => .answer (.ofStatus (faultStatus fault))

namespace ServiceView

/-- That the service is there. -/
def health (s : ServiceView) : HealthResponse :=
  ⟨"ok", s.build.version, s.build.gitHash, s.build.profile⟩

/-- The state of the service. -/
def status (s : ServiceView) : StatusResponse where
  running := true
  version := s.build.describe
  uptimeSecs := s.uptimeSecs
  daemonConnected := s.connected
  daemonSocket := s.config.daemon.socketPath
  commandPrefix := s.config.daemon.commandPrefix
  serviceSocket := s.config.service.socketPath
  pid := s.pid

end ServiceView

/-- That the service is about to stop. -/
def stopNotice : StopResponse := ⟨true, "Shutdown initiated"⟩

/-- What an endpoint does about a request whose method fits. -/
def handleAt (s : ServiceView) (r : Request) : Endpoint → Handling
  | .health => .answer (respond s.health)
  | .status => .answer (respond s.status)
  | .config => .answer (respond (ConfigResponse.mk s.config.pretty))
  | .stop => .stop (respond stopNotice)
  | .operation kind => handleOperation kind r

/-- Answers a request for the head with nothing but the head. -/
def Handling.forMethod (h : Handling) (m : Method) : Handling :=
  match h, m with
  | .answer r, .head => .answer r.headOnly
  | h, _ => h

/-- What is done about a request. -/
def handle (s : ServiceView) (r : Request) : Handling :=
  match Route.at? r.path with
  | none => .answer (.ofStatus Status.notFound)
  | some route =>
    if route.allows r.method then (handleAt s r route.endpoint).forMethod r.method
    else .answer (.ofStatus Status.methodNotAllowed)

example : handle {} { method := .get, target := "/storage/explode" } = .answer (.ofStatus 404) := by
  decide +kernel

example : handle {} { method := .post, target := "/stop" } =
    .stop ⟨200, some "\x7b\"acknowledged\":true,\"message\":\"Shutdown initiated\"\x7d"⟩ := by
  decide +kernel

end Http
end EfsControl
