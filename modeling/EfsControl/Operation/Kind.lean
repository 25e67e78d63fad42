/-
# Kinds of operations

An operation without its arguments: what is to be done, but not to which
storage or user.

Key definitions: `OperationKind`, `Operation.kind`.
-/
import EfsControl.Operation

namespace EfsControl

/-- The kinds of operations. -/
inductive OperationKind
  | createStorage
  | unlockStorage
  | lockStorage
  | changeStoragePassword
  | removeStorage
  | storageStat
  | recoverAndRemoveStorage
  | encryptionProgress
  | encryptUserData
  | unlockUserData
  | lockUserData
  | changeUserDataPassword
  | removeUserEncryptedData
  | userDataStat
  | decryptUserData
  deriving DecidableEq, Repr

/-- The kind of an operation. -/
def Operation.kind : Operation → OperationKind
  | .createStorage .. => .createStorage
  | .unlockStorage .. => .unlockStorage
  | .lockStorage .. => .lockStorage
  | .changeStoragePassword .. => .changeStoragePassword
  | .removeStorage .. => .removeStorage
  | .storageStat .. => .storageStat
  | .recoverAndRemoveStorage .. => .recoverAndRemoveStorage
  | .encryptionProgress .. => .encryptionProgress
  | .encryptUserData .. => .encryptUserData
  | .unlockUserData .. => .unlockUserData
  | .lockUserData .. => .lockUserData
  | .changeUserDataPassword .. => .changeUserDataPassword
  | .removeUserEncryptedData .. => .removeUserEncryptedData
  | .userDataStat .. => .userDataStat
  | .decryptUserData .. => .decryptUserData

namespace OperationKind

/-- All kinds. -/
def all : List OperationKind :=
  [createStorage, unlockStorage, lockStorage, changeStoragePassword, removeStorage, storageStat,
    recoverAndRemoveStorage, encryptionProgress, encryptUserData, unlockUserData, lockUserData,
    changeUserDataPassword, removeUserEncryptedData, userDataStat, decryptUserData]

/-- Every kind is among all. -/
theorem mem_all (kind : OperationKind) : kind ∈ all := by cases kind <;> decide

end OperationKind
end EfsControl
