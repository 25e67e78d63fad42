/-
# Storage operations

What the service can ask of the daemon: eight operations on a storage
container, which is named by its path, and seven on the encrypted data of a
user. Each has a subcommand, its arguments in order, and a kind that says how
the number in the daemon's answer is read.

Key definitions: `Operation`, `Operation.subcommand`, `Operation.args`,
`Operation.resultKind`.
-/
import EfsControl.Command.Encode

namespace EfsControl

/-- How the number in a successful reply is read. -/
inductive ResultKind
  /-- `0` is success and anything else a failure. -/
  | status
  /-- A number from `0` on is the answer. -/
  | query
  deriving DecidableEq, Repr

/-- A storage operation. -/
inductive Operation
  | createStorage (path : String) (password : Password)
  | unlockStorage (path : String) (password : Password)
  | lockStorage (path : String)
  | changeStoragePassword (path : String) (oldPassword newPassword : Password)
  | removeStorage (path : String)
  | storageStat (path : String)
  | recoverAndRemoveStorage (path : String) (password : Password)
  | encryptionProgress (path : String)
  | encryptUserData (userId : UInt32) (password : Password)
  | unlockUserData (userId : UInt32) (fromInit : Bool) (password : Password)
  | lockUserData (userId : UInt32)
  | changeUserDataPassword (userId : UInt32) (oldPassword newPassword : Password)
  | removeUserEncryptedData (userId : UInt32)
  | userDataStat (userId : UInt32)
  | decryptUserData (userId : UInt32) (password : Password)
  deriving DecidableEq

namespace Operation

/-- The subcommand on the wire. -/
def subcommand : Operation → String
  | .createStorage .. => "create"
  | .unlockStorage .. => "unlock"
  | .lockStorage .. => "lock"
  | .changeStoragePassword .. => "change_passwd"
  | .removeStorage .. => "remove"
  | .storageStat .. => "stat"
  | .recoverAndRemoveStorage .. => "recover"
  | .encryptionProgress .. => "get_progress"
  | .encryptUserData .. => "encrypt_user_data"
  | .unlockUserData .. => "unlock_user_data"
  | .lockUserData .. => "lock_user_data"
  | .changeUserDataPassword .. => "change_user_data_passwd"
  | .removeUserEncryptedData .. => "remove_user_encrypted_data"
  | .userDataStat .. => "user_stat"
  | .decryptUserData .. => "decrypt_user_data"

/-- How the answer is read. -/
def resultKind : Operation → ResultKind
  | .storageStat .. | .encryptionProgress .. | .userDataStat .. => .query
  | _ => .status

/-- A user's number as an argument. -/
def userArg (userId : UInt32) : Arg := .int userId.toNat

/-- The arguments on the wire, in order. -/
def args : Operation → List Arg
  | .createStorage path password
  | .unlockStorage path password
  | .recoverAndRemoveStorage path password => [.text path, .secret password]
  | .lockStorage path
  | .removeStorage path
  | .storageStat path
  | .encryptionProgress path => [.text path]
  | .changeStoragePassword path old new => [.text path, .secret old, .secret new]
  | .encryptUserData user password
  | .decryptUserData user password => [userArg user, .secret password]
  | .unlockUserData user fromInit password =>
    [userArg user, .int (if fromInit then 1 else 0), .secret password]
  | .lockUserData user
  | .removeUserEncryptedData user
  | .userDataStat user => [userArg user]
  | .changeUserDataPassword user old new => [userArg user, .secret old, .secret new]

/-- The name of the operation's kind. -/
def name : Operation → String
  | .createStorage .. => "CreateStorage"
  | .unlockStorage .. => "UnlockStorage"
  | .lockStorage .. => "LockStorage"
  | .changeStoragePassword .. => "ChangeStoragePassword"
  | .removeStorage .. => "RemoveStorage"
  | .storageStat .. => "StorageStat"
  | .recoverAndRemoveStorage .. => "RecoverAndRemoveStorage"
  | .encryptionProgress .. => "EncryptionProgress"
  | .encryptUserData .. => "EncryptUserData"
  | .unlockUserData .. => "UnlockUserData"
  | .lockUserData .. => "LockUserData"
  | .changeUserDataPassword .. => "ChangeUserDataPassword"
  | .removeUserEncryptedData .. => "RemoveUserEncryptedData"
  | .userDataStat .. => "UserDataStat"
  | .decryptUserData .. => "DecryptUserData"

/-- The fields as they are shown, in order. -/
def fields : Operation → List (String × String)
  | .createStorage path password
  | .unlockStorage path password
  | .recoverAndRemoveStorage path password =>
    [("path", Text.quoted path), ("password", password.describe)]
  | .lockStorage path
  | .removeStorage path
  | .storageStat path
  | .encryptionProgress path => [("path", Text.quoted path)]
  | .changeStoragePassword path old new =>
    [("path", Text.quoted path), ("old_password", old.describe), ("new_password", new.describe)]
  | .encryptUserData user password
  | .decryptUserData user password =>
    [("user_id", toString user.toNat), ("password", password.describe)]
  | .unlockUserData user fromInit password =>
    [("user_id", toString user.toNat), ("from_init", toString fromInit),
      ("password", password.describe)]
  | .lockUserData user
  | .removeUserEncryptedData user
  | .userDataStat user => [("user_id", toString user.toNat)]
  | .changeUserDataPassword user old new =>
    [("user_id", toString user.toNat), ("old_password", old.describe),
      ("new_password", new.describe)]

/-- The shown form, without the passwords. -/
def describe (op : Operation) : String := Text.record op.name op.fields

/-- The command that asks the daemon for the operation. -/
def encode (op : Operation) (seq : Option UInt32) (commandPrefix : String) :
    Except EncodeError EncodedCommand :=
  EfsControl.encode seq commandPrefix op.subcommand op.args

end Operation
end EfsControl
