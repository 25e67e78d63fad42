/-
# Messages of the service

What clients and the service tell each other: seven kinds of requests that
carry the parts of an operation, and the answers. Every message is a record;
in its shown form a password is hidden.

Key definitions: `Message`, `Message.toJson`, `Message.read`,
`Message.readBytes`, `Message.describe`, and a type for each kind of message.
-/
import EfsControl.Json.Record
import EfsControl.Text.Quoted

namespace EfsControl

open Json (Field FieldKind FieldValue Fault)

/-- A type of records: their name, their fields, and what the fields of each hold. -/
class Message (α : Type) where
  name : String
  fields : List Field
  toValues : α → List FieldValue
  ofValues? : List FieldValue → Option α

namespace Message

variable {α : Type} [Message α]

/-- A message as a JSON value. -/
def toJson (m : α) : Json.Value := Json.writeRecord (fields α) (toValues m)

/-- A message as JSON. -/
def write (m : α) : String := String.ofList (toJson m).write

/-- The message in a text, with a way to read the texts in it. -/
def readWith (text : Json.TextReader) (α : Type) [Message α] (cs : List Char) : Except Fault α := do
  match ofValues? (← Json.readDocument (Json.readRecord text (fields α)) cs) with
  | some m => return m
  | none => .error .mismatched

/-- The message in a text. -/
def read (α : Type) [Message α] (s : String) : Except Fault α :=
  readWith Json.readText α s.toList

/-- The message in a body. Where its bytes are read as text, they must be UTF-8; values that are
read over are not looked at so closely. -/
def readBytes (α : Type) [Message α] (body : List UInt8) : Except Fault α :=
  let (cs, marks) := Utf8.decodeMarked body
  readWith (Json.readUnmarked marks) α cs

/-- The shown form of what a field holds. -/
def describeValue : FieldValue → String
  | .text s => Text.quoted s
  | .secret p => p.describe
  | .flag b => toString b
  | .number n => String.ofList (Text.intDigits n)

/-- The shown form of a message. -/
def describe (m : α) : String :=
  Text.record (name α)
    (((fields α).zip (toValues m)).map fun (f, v) => (f.name, describeValue v))

end Message

/-! ### Kinds of fields -/

namespace Json.Field

/-- A text. -/
def text (name : String) : Field := { name, kind := .text }

/-- A password. -/
def secret (name : String) : Field := { name, kind := .secret }

/-- A truth value. -/
def flag (name : String) : Field := { name, kind := .flag }

/-- A whole number without a sign, of 32 bits. -/
def unsigned32 (name : String) : Field := { name, kind := .number 0 (UInt32.size - 1) }

/-- A whole number without a sign, of 64 bits. -/
def unsigned64 (name : String) : Field := { name, kind := .number 0 (UInt64.size - 1) }

/-- A whole number with a sign, of 32 bits. -/
def signed32 (name : String) : Field := { name, kind := .number Text.leastInt32 Text.greatestInt32 }

end Json.Field

/-! ### Requests -/

/-- An operation on a storage. -/
structure StoragePathRequest where
  path : String
  deriving DecidableEq

/-- An operation on a storage that needs its password. -/
structure StoragePasswordRequest where
  path : String
  password : Password
  deriving DecidableEq

/-- The change of a storage's password. -/
structure StorageChangePasswordRequest where
  path : String
  oldPassword : Password
  newPassword : Password
  deriving DecidableEq

/-- An operation on a user's data. -/
structure UserRequest where
  userId : UInt32
  deriving DecidableEq

/-- An operation on a user's data that needs the password. -/
structure UserPasswordRequest where
  userId : UInt32
  password : Password
  deriving DecidableEq

/-- The unlocking of a user's data. -/
structure UserUnlockRequest where
  userId : UInt32
  /-- Whether this happens while the system starts. -/
  fromInit : Bool := false
  password : Password
  deriving DecidableEq

/-- The change of the password of a user's data. -/
structure UserChangePasswordRequest where
  userId : UInt32
  oldPassword : Password
  newPassword : Password
  deriving DecidableEq

/-! ### Answers -/

/-- The result code of an operation. -/
structure ResultResponse where
  code : Int32
  deriving DecidableEq

/-- That the service is there, and which one. -/
structure HealthResponse where
  status : String
  version : String
  gitHash : String
  buildProfile : String
  deriving DecidableEq

/-- The state of the service. -/
structure StatusResponse where
  running : Bool
  version : String
  uptimeSecs : UInt64
  daemonConnected : Bool
  daemonSocket : String
  commandPrefix : String
  serviceSocket : String
  pid : UInt32
  deriving DecidableEq

/-- That the service is about to stop. -/
structure StopResponse where
  acknowledged : Bool
  message : String
  deriving DecidableEq

/-- The configuration as a text. -/
structure ConfigResponse where
  toml : String
  deriving DecidableEq

/-- Why a request failed. -/
structure ErrorResponse where
  error : String
  deriving DecidableEq

/-! ### Their fields -/

/-- A number without a sign, as a field holds it. -/
def Json.FieldValue.ofUInt32 (n : UInt32) : FieldValue := .number n.toNat

instance : Message StoragePathRequest where
  name := "StoragePathRequest"
  fields := [.text "path"]
  toValues m := [.text m.path]
  ofValues?
    | [.text path] => some ⟨path⟩
    | _ => none

instance : Message StoragePasswordRequest where
  name := "StoragePasswordRequest"
  fields := [.text "path", .secret "password"]
  toValues m := [.text m.path, .secret m.password]
  ofValues?
    | [.text path, .secret password] => some ⟨path, password⟩
    | _ => none

instance : Message StorageChangePasswordRequest where
  name := "StorageChangePasswordRequest"
  fields := [.text "path", .secret "old_password", .secret "new_password"]
  toValues m := [.text m.path, .secret m.oldPassword, .secret m.newPassword]
  ofValues?
    | [.text path, .secret old, .secret new] => some ⟨path, old, new⟩
    | _ => none

instance : Message UserRequest where
  name := "UserRequest"
  fields := [.unsigned32 "user_id"]
  toValues m := [.ofUInt32 m.userId]
  ofValues?
    | [.number user] => some ⟨.ofNat user.toNat⟩
    | _ => none

instance : Message UserPasswordRequest where
  name := "UserPasswordRequest"
  fields := [.unsigned32 "user_id", .secret "password"]
  toValues m := [.ofUInt32 m.userId, .secret m.password]
  ofValues?
    | [.number user, .secret password] => some ⟨.ofNat user.toNat, password⟩
    | _ => none

instance : Message UserUnlockRequest where
  name := "UserUnlockRequest"
  fields := [.unsigned32 "user_id",
    { Json.Field.flag "from_init" with default? := some (.flag false) }, .secret "password"]
  toValues m := [.ofUInt32 m.userId, .flag m.fromInit, .secret m.password]
  ofValues?
    | [.number user, .flag fromInit, .secret password] =>
      some ⟨.ofNat user.toNat, fromInit, password⟩
    | _ => none

instance : Message UserChangePasswordRequest where
  name := "UserChangePasswordRequest"
  fields := [.unsigned32 "user_id", .secret "old_password", .secret "new_password"]
  toValues m := [.ofUInt32 m.userId, .secret m.oldPassword, .secret m.newPassword]
  ofValues?
    | [.number user, .secret old, .secret new] => some ⟨.ofNat user.toNat, old, new⟩
    | _ => none

instance : Message ResultResponse where
  name := "ResultResponse"
  fields := [.signed32 "code"]
  toValues m := [.number m.code.toInt]
  ofValues?
    | [.number code] => some ⟨.ofInt code⟩
    | _ => none

instance : Message HealthResponse where
  name := "HealthResponse"
  fields := [.text "status", .text "version", .text "git_hash", .text "build_profile"]
  toValues m := [.text m.status, .text m.version, .text m.gitHash, .text m.buildProfile]
  ofValues?
    | [.text status, .text version, .text hash, .text profile] =>
      some ⟨status, version, hash, profile⟩
    | _ => none

instance : Message StatusResponse where
  name := "StatusResponse"
  fields := [.flag "running", .text "version", .unsigned64 "uptime_secs", .flag "daemon_connected",
    .text "daemon_socket", .text "command_prefix", .text "service_socket", .unsigned32 "pid"]
  toValues m := [.flag m.running, .text m.version, .number m.uptimeSecs.toNat,
    .flag m.daemonConnected, .text m.daemonSocket, .text m.commandPrefix, .text m.serviceSocket,
    .ofUInt32 m.pid]
  ofValues?
    | [.flag running, .text version, .number uptime, .flag connected, .text daemon,
        .text commandPrefix, .text service, .number pid] =>
      some ⟨running, version, .ofNat uptime.toNat, connected, daemon, commandPrefix, service,
        .ofNat pid.toNat⟩
    | _ => none

instance : Message StopResponse where
  name := "StopResponse"
  fields := [.flag "acknowledged", .text "message"]
  toValues m := [.flag m.acknowledged, .text m.message]
  ofValues?
    | [.flag acknowledged, .text message] => some ⟨acknowledged, message⟩
    | _ => none

instance : Message ConfigResponse where
  name := "ConfigResponse"
  fields := [.text "toml"]
  toValues m := [.text m.toml]
  ofValues?
    | [.text toml] => some ⟨toml⟩
    | _ => none

instance : Message ErrorResponse where
  name := "ErrorResponse"
  fields := [.text "error"]
  toValues m := [.text m.error]
  ofValues?
    | [.text error] => some ⟨error⟩
    | _ => none

namespace Password

/-- A password as JSON: the bare text. -/
def writeJson (p : Password) : String := String.ofList (Json.writeText p.expose.toList)

/-- The password in a JSON text. -/
def readJson (s : String) : Except Fault Password :=
  (Json.readDocument (Json.readTextValue Json.readText) s.toList).map Password.mk

end Password
end EfsControl
