/-
# When a request has an operation performed

An operation is performed if and only if the request asks for one: with POST,
at the path of its kind, announced as JSON, within the limit, and with a body
that is the request of this kind. Everything else is answered without it.

Key definitions: `OperationKind.request`, `OperationKind.operation`,
`Http.Request.Asks`.
Key theorems: `OperationKind.readBody_eq_ok_iff`, `Http.handle_eq_perform_iff`.
-/
import EfsControl.Http.Router
import EfsControl.Proofs.Message.Kind

namespace EfsControl

/-- The kind of message that asks for operations of a kind. -/
def OperationKind.request : OperationKind → MessageKind
  | createStorage | unlockStorage | recoverAndRemoveStorage => .storagePassword
  | lockStorage | removeStorage | storageStat | encryptionProgress => .storagePath
  | changeStoragePassword => .storageChangePassword
  | encryptUserData | decryptUserData => .userPassword
  | unlockUserData => .userUnlock
  | lockUserData | removeUserEncryptedData | userDataStat => .user
  | changeUserDataPassword => .userChangePassword

/-- The operation of a kind with the fields of a message. -/
def OperationKind.operation : (kind : OperationKind) → kind.request.Content → Operation
  | createStorage, (m : StoragePasswordRequest) => .createStorage m.path m.password
  | unlockStorage, (m : StoragePasswordRequest) => .unlockStorage m.path m.password
  | lockStorage, (m : StoragePathRequest) => .lockStorage m.path
  | changeStoragePassword, (m : StorageChangePasswordRequest) =>
    .changeStoragePassword m.path m.oldPassword m.newPassword
  | removeStorage, (m : StoragePathRequest) => .removeStorage m.path
  | storageStat, (m : StoragePathRequest) => .storageStat m.path
  | recoverAndRemoveStorage, (m : StoragePasswordRequest) =>
    .recoverAndRemoveStorage m.path m.password
  | encryptionProgress, (m : StoragePathRequest) => .encryptionProgress m.path
  | encryptUserData, (m : UserPasswordRequest) => .encryptUserData m.userId m.password
  | unlockUserData, (m : UserUnlockRequest) => .unlockUserData m.userId m.fromInit m.password
  | lockUserData, (m : UserRequest) => .lockUserData m.userId
  | changeUserDataPassword, (m : UserChangePasswordRequest) =>
    .changeUserDataPassword m.userId m.oldPassword m.newPassword
  | removeUserEncryptedData, (m : UserRequest) => .removeUserEncryptedData m.userId
  | userDataStat, (m : UserRequest) => .userDataStat m.userId
  | decryptUserData, (m : UserPasswordRequest) => .decryptUserData m.userId m.password

/-- A body is read as the message of its kind, and gives the operation with the fields of it. -/
theorem OperationKind.readBody_eq (kind : OperationKind) (body : List UInt8) :
    kind.readBody body = (Message.readBytes kind.request.Content body).map kind.operation := by
  have hmap {α β : Type} (x : Except Json.Fault α) (f : α → β) :
      (x >>= fun a => pure (f a)) = x.map f := by cases x <;> rfl
  cases kind <;> exact hmap _ _

theorem OperationKind.readBody_eq_ok_iff {kind : OperationKind} {body : List UInt8}
    {op : Operation} : kind.readBody body = .ok op ↔
      ∃ m, Message.readBytes kind.request.Content body = .ok m ∧ op = kind.operation m := by
  rw [readBody_eq]
  cases Message.readBytes kind.request.Content body <;> simp [Except.map, eq_comm]

namespace Http

/-- The request asks for an operation: it has the method and the path for one, its body is announced
as JSON and not too long, and it is the message whose fields the operation has. -/
def Request.Asks (r : Request) (op : Operation) : Prop :=
  ∃ (kind : OperationKind) (m : kind.request.Content),
    ⟨r.path, r.method, .operation kind⟩ ∈ routes ∧
    announcesJson r.contentType = true ∧ r.body.length ≤ bodyLimit ∧
    Message.readBytes kind.request.Content r.body = .ok m ∧ op = kind.operation m

/-- A request for an operation has one performed if its body is what it should be. -/
theorem handleOperation_eq_perform_iff {kind : OperationKind} {r : Request} {op : Operation} :
    handleOperation kind r = .perform op ↔
      announcesJson r.contentType = true ∧ r.body.length ≤ bodyLimit ∧
        kind.readBody r.body = .ok op := by
  unfold handleOperation
  by_cases hjson : announcesJson r.contentType = true
  · by_cases hlen : bodyLimit < r.body.length
    · simp [hjson, hlen, Nat.not_le.mpr hlen]
    · cases hread : kind.readBody r.body with
      | ok op' => simp [hjson, hlen, Nat.le_of_not_lt]
      | error fault => simp [hjson, hlen]
  · simp [hjson]

theorem handle_eq_perform_iff {s : ServiceView} {r : Request} {op : Operation} :
    handle s r = .perform op ↔ r.Asks op := by
  have hforMethod {h : Handling} {m : Method} : h.forMethod m = .perform op ↔ h = .perform op := by
    cases h <;> cases m <;> simp [Handling.forMethod]
  constructor
  · intro h
    unfold handle at h
    split at h
    · cases h
    · rename_i route hroute
      have hmem : route ∈ routes := List.mem_of_find?_eq_some hroute
      have hpath : route.path = r.path := by simpa using List.find?_some hroute
      split at h
      · rename_i hallows
        rw [hforMethod] at h
        cases he : route.endpoint with
        | operation kind =>
          rw [he] at h
          obtain ⟨hjson, hlen, hbody⟩ := handleOperation_eq_perform_iff.mp h
          obtain ⟨m, hm, hop⟩ := OperationKind.readBody_eq_ok_iff.mp hbody
          have hpost := Route.method_of_operation route hmem kind he
          have hmethod : r.method = route.method := by simpa [Route.allows, hpost] using hallows
          have hsame : (⟨r.path, r.method, .operation kind⟩ : Route) = route := by
            rw [← hpath, hmethod, ← he]
          exact ⟨kind, m, hsame ▸ hmem, hjson, hlen, hm, hop⟩
        | health | status | config | stop =>
          rw [he] at h
          cases h
      · cases h
  · rintro ⟨kind, m, hmem, hjson, hlen, hm, hop⟩
    have hplace : Route.at? r.path = some ⟨r.path, r.method, .operation kind⟩ :=
      Route.at?_path _ hmem
    have hallows : Route.allows ⟨r.path, r.method, .operation kind⟩ r.method = true := by
      simp [Route.allows]
    rw [handle, hplace]
    simp only [hallows, if_true, hforMethod]
    exact handleOperation_eq_perform_iff.mpr
      ⟨hjson, hlen, OperationKind.readBody_eq_ok_iff.mpr ⟨m, hm, hop⟩⟩

end Http
end EfsControl
