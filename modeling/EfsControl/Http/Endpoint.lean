/-
# Endpoints

What can be asked of the service: how it is, in which state, how it is
configured, that it stops, and each of the fifteen operations. A route gives
an endpoint its path and one method; the parts of an operation are in the body
of the request.

Key definitions: `OperationKind.readBody`, `Http.Endpoint`, `Http.routes`.
Key theorems: `Http.Route.at?_path`, `Http.Route.method_of_operation`.
-/
import EfsControl.Http.Message
import EfsControl.Message
import EfsControl.Operation.Kind

namespace EfsControl

open Json (Fault)

namespace OperationKind

/-- The operation of a kind whose parts are in a body. -/
def readBody (kind : OperationKind) (body : List UInt8) : Except Fault Operation :=
  match kind with
  | createStorage => do
    let m ← Message.readBytes StoragePasswordRequest body
    return .createStorage m.path m.password
  | unlockStorage => do
    let m ← Message.readBytes StoragePasswordRequest body
    return .unlockStorage m.path m.password
  | lockStorage => do
    let m ← Message.readBytes StoragePathRequest body
    return .lockStorage m.path
  | changeStoragePassword => do
    let m ← Message.readBytes StorageChangePasswordRequest body
    return .changeStoragePassword m.path m.oldPassword m.newPassword
  | removeStorage => do
    let m ← Message.readBytes StoragePathRequest body
    return .removeStorage m.path
  | storageStat => do
    let m ← Message.readBytes StoragePathRequest body
    return .storageStat m.path
  | recoverAndRemoveStorage => do
    let m ← Message.readBytes StoragePasswordRequest body
    return .recoverAndRemoveStorage m.path m.password
  | encryptionProgress => do
    let m ← Message.readBytes StoragePathRequest body
    return .encryptionProgress m.path
  | encryptUserData => do
    let m ← Message.readBytes UserPasswordRequest body
    return .encryptUserData m.userId m.password
  | unlockUserData => do
    let m ← Message.readBytes UserUnlockRequest body
    return .unlockUserData m.userId m.fromInit m.password
  | lockUserData => do
    let m ← Message.readBytes UserRequest body
    return .lockUserData m.userId
  | changeUserDataPassword => do
    let m ← Message.readBytes UserChangePasswordRequest body
    return .changeUserDataPassword m.userId m.oldPassword m.newPassword
  | removeUserEncryptedData => do
    let m ← Message.readBytes UserRequest body
    return .removeUserEncryptedData m.userId
  | userDataStat => do
    let m ← Message.readBytes UserRequest body
    return .userDataStat m.userId
  | decryptUserData => do
    let m ← Message.readBytes UserPasswordRequest body
    return .decryptUserData m.userId m.password

end OperationKind

namespace Http

/-- What a request can ask for. -/
inductive Endpoint
  | health
  | status
  | stop
  | config
  | operation (kind : OperationKind)
  deriving DecidableEq, Repr

/-- An endpoint with its path and its method. -/
structure Route where
  path : String
  method : Method
  endpoint : Endpoint
  deriving DecidableEq

/-- The routes of the service. -/
def routes : List Route :=
  [ ⟨"/health", .get, .health⟩,
    ⟨"/status", .get, .status⟩,
    ⟨"/stop", .post, .stop⟩,
    ⟨"/config", .get, .config⟩,
    ⟨"/storage/create", .post, .operation .createStorage⟩,
    ⟨"/storage/unlock", .post, .operation .unlockStorage⟩,
    ⟨"/storage/lock", .post, .operation .lockStorage⟩,
    ⟨"/storage/change-password", .post, .operation .changeStoragePassword⟩,
    ⟨"/storage/remove", .post, .operation .removeStorage⟩,
    ⟨"/storage/stat", .post, .operation .storageStat⟩,
    ⟨"/storage/recover", .post, .operation .recoverAndRemoveStorage⟩,
    ⟨"/storage/progress", .post, .operation .encryptionProgress⟩,
    ⟨"/user/encrypt", .post, .operation .encryptUserData⟩,
    ⟨"/user/unlock", .post, .operation .unlockUserData⟩,
    ⟨"/user/lock", .post, .operation .lockUserData⟩,
    ⟨"/user/change-password", .post, .operation .changeUserDataPassword⟩,
    ⟨"/user/remove", .post, .operation .removeUserEncryptedData⟩,
    ⟨"/user/stat", .post, .operation .userDataStat⟩,
    ⟨"/user/decrypt", .post, .operation .decryptUserData⟩ ]

namespace Route

/-- The route of a path. -/
def at? (path : String) : Option Route := routes.find? (·.path == path)

/-- Whether a method can be used on a route: where something can be got, so can its head. -/
def allows (r : Route) (m : Method) : Bool := m == r.method || (r.method == .get && m == .head)

/-- Every route is found by its path. -/
theorem at?_path : ∀ r ∈ routes, at? r.path = some r := by decide +kernel

/-- Operations are asked for with POST. -/
theorem method_of_operation : ∀ r ∈ routes, ∀ kind, r.endpoint = .operation kind →
    r.method = .post := by
  have hget : ∀ r ∈ routes, r.method = .post ∨
      r.endpoint = .health ∨ r.endpoint = .status ∨ r.endpoint = .config := by decide +kernel
  intro r hr kind he
  rcases hget r hr with h | h | h | h
  · exact h
  all_goals
    rw [he] at h
    cases h

end Route
end Http
end EfsControl
