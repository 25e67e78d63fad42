/-
# The client of the service

A client makes one request per connection. What it asks for decides the path
and the body of the request, and the type of the answer. A request fails when
there is no service, when the answer is broken, when its status is no success,
or when its body is not of the expected shape.

Key definitions: `Operation.writeBody`, `Client.Call`, `Client.Call.path`,
`Client.Call.request`, `Client.Call.Result`, `Client.Call.read`,
`Client.reach`, `ClientError`.
-/
import EfsControl.Http.Answer
import EfsControl.Http.Message
import EfsControl.Message
import EfsControl.Operation.Kind
import EfsControl.Socket

namespace EfsControl

/-- Why a client has no answer. -/
inductive ClientError
  /-- Nothing is at the path of the service's socket. -/
  | notRunning (path : String)
  | connect (path cause : String)
  /-- What came back is no answer. -/
  | broken
  | unexpectedStatus (status : Nat)
  /-- The body of the answer is not of the expected shape. -/
  | parse
  /-- The service says why it failed. -/
  | service (error : String)
  deriving DecidableEq

/-- The wording of the error, where it is fixed. -/
def ClientError.message? : ClientError → Option String
  | .notRunning path => some ("service is not running (socket not found at " ++ path ++ ")")
  | .connect path cause => some ("failed to connect to service socket at " ++ path ++ ": " ++ cause)
  | .unexpectedStatus status =>
    some ("request failed: unexpected status: " ++ Http.describeStatus status)
  | .service error => some ("service returned error: " ++ error)
  | .broken | .parse => none

/-- The body that asks for an operation. -/
def Operation.writeBody : Operation → String
  | .createStorage path password
  | .unlockStorage path password
  | .recoverAndRemoveStorage path password =>
    Message.write (StoragePasswordRequest.mk path password)
  | .lockStorage path
  | .removeStorage path
  | .storageStat path
  | .encryptionProgress path => Message.write (StoragePathRequest.mk path)
  | .changeStoragePassword path old new =>
    Message.write (StorageChangePasswordRequest.mk path old new)
  | .encryptUserData user password
  | .decryptUserData user password => Message.write (UserPasswordRequest.mk user password)
  | .unlockUserData user fromInit password =>
    Message.write (UserUnlockRequest.mk user fromInit password)
  | .lockUserData user
  | .removeUserEncryptedData user
  | .userDataStat user => Message.write (UserRequest.mk user)
  | .changeUserDataPassword user old new =>
    Message.write (UserChangePasswordRequest.mk user old new)

namespace Client

/-- The host that requests name. -/
def host : String := "localhost"

/-- What a client asks for. -/
inductive Call
  | health
  | status
  | stop
  | config
  | perform (op : Operation)
  deriving DecidableEq

namespace Call

/-- What a client gets when all goes well. -/
abbrev Result : Call → Type
  | health => HealthResponse
  | status => StatusResponse
  | stop => StopResponse
  | config => ConfigResponse
  | perform _ => Int32

/-- How it is asked for. -/
def method : Call → Http.Method
  | health | status | config => .get
  | stop | perform _ => .post

/-- Where it is asked for. -/
def path : Call → String
  | health => "/health"
  | status => "/status"
  | stop => "/stop"
  | config => "/config"
  | perform (.createStorage ..) => "/storage/create"
  | perform (.unlockStorage ..) => "/storage/unlock"
  | perform (.lockStorage ..) => "/storage/lock"
  | perform (.changeStoragePassword ..) => "/storage/change-password"
  | perform (.removeStorage ..) => "/storage/remove"
  | perform (.storageStat ..) => "/storage/stat"
  | perform (.recoverAndRemoveStorage ..) => "/storage/recover"
  | perform (.encryptionProgress ..) => "/storage/progress"
  | perform (.encryptUserData ..) => "/user/encrypt"
  | perform (.unlockUserData ..) => "/user/unlock"
  | perform (.lockUserData ..) => "/user/lock"
  | perform (.changeUserDataPassword ..) => "/user/change-password"
  | perform (.removeUserEncryptedData ..) => "/user/remove"
  | perform (.userDataStat ..) => "/user/stat"
  | perform (.decryptUserData ..) => "/user/decrypt"

/-- The body of the request, where it has one. -/
def body? : Call → Option String
  | perform op => some op.writeBody
  | _ => none

/-- The request that is sent. -/
def request (c : Call) : Http.Request where
  method := c.method
  target := c.path
  host := some host
  contentType := c.body?.map fun _ => "application/json"
  body := Utf8.ofString (c.body?.getD "")

end Call

/-- Whether a service seems to be there: something is at the path of its socket. -/
def isAvailable (s : Socket) : Bool := s != .absent

/-- The way to the service, or why there is none. -/
def reach (path : String) : Socket → Except ClientError Unit
  | .absent => .error (.notRunning path)
  | .deaf => .error (.connect path ExchangeError.connectionRefused)
  | .listening => .ok ()

/-- The body of an answer whose status is a success. -/
def successBody (a : Http.Answer) : Except ClientError (List UInt8) :=
  if Http.Status.isSuccess a.status then .ok a.body
  else
    match Message.readBytes ErrorResponse a.body with
    | .ok m => .error (.service m.error)
    | .error _ => .error (.unexpectedStatus a.status)

/-- The message in the body of an answer. -/
def readMessage (α : Type) [Message α] (a : Http.Answer) : Except ClientError α := do
  match Message.readBytes α (← successBody a) with
  | .ok m => return m
  | .error _ => .error .parse

/-- What an answer says. -/
def Call.read : (c : Call) → Http.Answer → Except ClientError c.Result
  | .health, a => readMessage HealthResponse a
  | .status, a => readMessage StatusResponse a
  | .stop, a => readMessage StopResponse a
  | .config, a => readMessage ConfigResponse a
  | .perform _, a => (readMessage ResultResponse a).map (·.code)

/-- What the bytes say that have come back. -/
def Call.readBytes (c : Call) (bytes : List UInt8) : Except ClientError c.Result :=
  match Http.readAnswer? bytes with
  | some a => c.read a
  | none => .error .broken

/-- A response of the service as it arrives. -/
def answerOf (r : Http.Response) : Http.Answer := ⟨r.status, Utf8.ofString (r.json?.getD "")⟩

end Client
end EfsControl
