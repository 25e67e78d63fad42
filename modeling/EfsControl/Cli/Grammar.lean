/-
# The grammar of the command line

A command is named by the words that lead to it: none, one, or two for an
operation on a storage or on a user's data. At each word there are options,
and there is either a choice of further words or a number of places for
values.

Key definitions: `Cli.OptionSpec`, `Cli.CommandSpec`, `Cli.specAt?`,
`OperationKind.words`.
-/
import EfsControl.Operation.Kind

namespace EfsControl

namespace OperationKind

/-- The word before that of the operation: what it is an operation on. -/
def group : OperationKind → String
  | createStorage | unlockStorage | lockStorage | changeStoragePassword | removeStorage
  | storageStat | recoverAndRemoveStorage | encryptionProgress => "storage"
  | encryptUserData | unlockUserData | lockUserData | changeUserDataPassword
  | removeUserEncryptedData | userDataStat | decryptUserData => "user"

/-- The word of an operation. -/
def word : OperationKind → String
  | createStorage => "create"
  | unlockStorage | unlockUserData => "unlock"
  | lockStorage | lockUserData => "lock"
  | changeStoragePassword | changeUserDataPassword => "change-passwd"
  | removeStorage | removeUserEncryptedData => "remove"
  | storageStat | userDataStat => "stat"
  | recoverAndRemoveStorage => "recover"
  | encryptionProgress => "progress"
  | encryptUserData => "encrypt"
  | decryptUserData => "decrypt"

/-- The words that lead to an operation. -/
def words (kind : OperationKind) : List String := [kind.group, kind.word]

end OperationKind

namespace Cli

/-- What an option does. -/
inductive Effect
  /-- It holds or not, and is given once at most. -/
  | flag
  /-- It is counted. -/
  | counter
  /-- It has a value, which is not empty, and is given once at most. -/
  | value
  /-- It asks for help. -/
  | help
  /-- It asks for the version. -/
  | version
  deriving DecidableEq

/-- An option. -/
structure OptionSpec where
  long : String
  short : Option Char := none
  effect : Effect := .flag
  deriving DecidableEq

/-- What a value in a place can be. -/
inductive ValueKind
  | text
  | userId
  deriving DecidableEq

/-- A place for a value. -/
structure Place where
  name : String
  kind : ValueKind := .text
  deriving DecidableEq

/-- What can follow the words of a command. -/
structure CommandSpec where
  options : List OptionSpec
  places : List Place := []
  subcommands : List String := []
  deriving DecidableEq

/-! ### Options -/

/-- The path of the configuration. -/
def configOption : OptionSpec := { long := "config", short := some 'c', effect := .value }

/-- How much is logged. -/
def verboseOption : OptionSpec := { long := "verbose", short := some 'v', effect := .counter }

/-- Whether the daemon is asked without the service. -/
def directOption : OptionSpec := { long := "direct" }

/-- Whether the whole configuration is shown. -/
def showOption : OptionSpec := { long := "show" }

/-- Whether the system is starting. -/
def fromInitOption : OptionSpec := { long := "from-init" }

/-- The option that asks for help. -/
def helpOption : OptionSpec := { long := "help", short := some 'h', effect := .help }

/-- The option that asks for the version. -/
def versionOption : OptionSpec := { long := "version", short := some 'V', effect := .version }

/-- The options that every command has. -/
def commonOptions : List OptionSpec := [directOption, helpOption]

/-! ### Commands -/

/-- The word that asks for help about the words that follow. -/
def helpWord : String := "help"

/-- The place of a path. -/
def pathPlace : Place := { name := "PATH" }

/-- The place of a user's number. -/
def userPlace : Place := { name := "USER_ID", kind := .userId }

/-- The place of a password. -/
def passwordPlace : Place := { name := "PASSWORD" }

/-- The places of two passwords. -/
def passwordChange : List Place := [{ name := "OLD_PASSWORD" }, { name := "NEW_PASSWORD" }]

/-- The places of an operation. -/
def placesOf : OperationKind → List Place
  | .createStorage | .unlockStorage | .recoverAndRemoveStorage => [pathPlace, passwordPlace]
  | .lockStorage | .removeStorage | .storageStat | .encryptionProgress => [pathPlace]
  | .changeStoragePassword => pathPlace :: passwordChange
  | .encryptUserData | .unlockUserData | .decryptUserData => [userPlace, passwordPlace]
  | .lockUserData | .removeUserEncryptedData | .userDataStat => [userPlace]
  | .changeUserDataPassword => userPlace :: passwordChange

/-- What can follow the words of an operation. -/
def operationSpec (kind : OperationKind) : CommandSpec where
  options := if kind = .unlockUserData then fromInitOption :: commonOptions else commonOptions
  places := placesOf kind

/-- The words of the operations of a group. -/
def groupWords (group : String) : List String :=
  (OperationKind.all.filter (·.group == group)).map (·.word)

/-- What can follow the name of the program. -/
def rootSpec : CommandSpec where
  options := [configOption, verboseOption] ++ commonOptions ++ [versionOption]
  subcommands := ["serve", "status", "stop", "config", "monitor", "storage", "user", helpWord]

/-- What can follow some words, if they lead to a command or a group of commands. -/
def specAt? (words : List String) : Option CommandSpec :=
  match words with
  | [] => some rootSpec
  | ["serve"] | ["status"] | ["stop"] | ["monitor"] => some { options := commonOptions }
  | ["config"] => some { options := showOption :: commonOptions }
  | ["storage"] | ["user"] =>
    some { options := commonOptions, subcommands := words.flatMap groupWords ++ [helpWord] }
  | _ => (OperationKind.all.find? (·.words == words)).map operationSpec

end Cli
end EfsControl
