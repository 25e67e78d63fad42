/-
# Commands

What the command line asks for: to run the service, to look at it or to stop
it, to check the configuration, to watch events, or to perform an operation. A
password of a single hyphen stands for a line of the standard input; lines are
taken in the order in which the passwords are written.

Key definitions: `Cli.StorageCommand`, `Cli.UserCommand`,
`Cli.OperationCommand.intoOperation`, `Cli.OperationCommand.withInput`,
`Cli.Command`, `Cli.Invocation`, `Cli.parse`.
-/
import EfsControl.Cli.Parse
import EfsControl.Config

namespace EfsControl

/-! ### Passwords from the standard input -/

/-- The first line with its line feed, if it has one, and what comes after it. -/
def takeInputLine : List Char → List Char × List Char
  | [] => ([], [])
  | c :: cs =>
    if c = '\n' then ([c], cs)
    else
      let (line, rest) := takeInputLine cs
      (c :: line, rest)

namespace Password

/-- What stands for a password in a line of the standard input. -/
def fromInput : String := "-"

/-- The password in a line: all but the line ends. -/
def ofLine (line : List Char) : Password := ⟨String.ofList (Text.dropLineEnd line)⟩

/-- The password that is written, or the one in the next line of the input. -/
def resolve (written : String) : StateM (List Char) Password := fun input =>
  if written = fromInput then
    let (line, rest) := takeInputLine input
    (ofLine line, rest)
  else (⟨written⟩, input)

end Password

namespace Cli

/-! ### Operations as they are written -/

/-- An operation on a storage. -/
inductive StorageCommand
  | create (path password : String)
  | unlock (path password : String)
  | lock (path : String)
  | changePasswd (path oldPassword newPassword : String)
  | remove (path : String)
  | stat (path : String)
  | recover (path password : String)
  | progress (path : String)
  deriving DecidableEq

/-- An operation on a user's data. -/
inductive UserCommand
  | encrypt (userId : UInt32) (password : String)
  | unlock (userId : UInt32) (password : String) (fromInit : Bool)
  | lock (userId : UInt32)
  | changePasswd (userId : UInt32) (oldPassword newPassword : String)
  | remove (userId : UInt32)
  | stat (userId : UInt32)
  | decrypt (userId : UInt32) (password : String)
  deriving DecidableEq

/-- An operation. -/
inductive OperationCommand
  | storage (c : StorageCommand)
  | user (c : UserCommand)
  deriving DecidableEq

section
variable {m : Type → Type} [Monad m] (resolve : String → m Password)

/-- The operation on a storage, with its passwords found one after the other. -/
def StorageCommand.intoOperation : StorageCommand → m Operation
  | create path password => do return .createStorage path (← resolve password)
  | unlock path password => do return .unlockStorage path (← resolve password)
  | lock path => return .lockStorage path
  | changePasswd path old new => do
    let old ← resolve old
    let new ← resolve new
    return .changeStoragePassword path old new
  | remove path => return .removeStorage path
  | stat path => return .storageStat path
  | recover path password => do return .recoverAndRemoveStorage path (← resolve password)
  | progress path => return .encryptionProgress path

/-- The operation on a user's data, with its passwords found one after the other. -/
def UserCommand.intoOperation : UserCommand → m Operation
  | encrypt user password => do return .encryptUserData user (← resolve password)
  | unlock user password fromInit => do
    return .unlockUserData user fromInit (← resolve password)
  | lock user => return .lockUserData user
  | changePasswd user old new => do
    let old ← resolve old
    let new ← resolve new
    return .changeUserDataPassword user old new
  | remove user => return .removeUserEncryptedData user
  | stat user => return .userDataStat user
  | decrypt user password => do return .decryptUserData user (← resolve password)

/-- The operation, with its passwords found one after the other. -/
def OperationCommand.intoOperation : OperationCommand → m Operation
  | storage c => c.intoOperation resolve
  | user c => c.intoOperation resolve

end

/-- The operation with its passwords taken from the input where a hyphen stands for a line of it,
and what is left of the input. -/
def OperationCommand.withInput (c : OperationCommand) (input : List Char) :
    Operation × List Char := c.intoOperation Password.resolve input

/-- The command for an operation of a kind with values in its places. -/
def operationCommand? (kind : OperationKind) (fromInit : Bool) (values : List String) :
    Option OperationCommand :=
  match kind, values with
  | .createStorage, [path, password] => some (.storage (.create path password))
  | .unlockStorage, [path, password] => some (.storage (.unlock path password))
  | .lockStorage, [path] => some (.storage (.lock path))
  | .changeStoragePassword, [path, old, new] => some (.storage (.changePasswd path old new))
  | .removeStorage, [path] => some (.storage (.remove path))
  | .storageStat, [path] => some (.storage (.stat path))
  | .recoverAndRemoveStorage, [path, password] => some (.storage (.recover path password))
  | .encryptionProgress, [path] => some (.storage (.progress path))
  | .encryptUserData, [user, password] => do return .user (.encrypt (← readUserId? user) password)
  | .unlockUserData, [user, password] => do
    return .user (.unlock (← readUserId? user) password fromInit)
  | .lockUserData, [user] => do return .user (.lock (← readUserId? user))
  | .changeUserDataPassword, [user, old, new] => do
    return .user (.changePasswd (← readUserId? user) old new)
  | .removeUserEncryptedData, [user] => do return .user (.remove (← readUserId? user))
  | .userDataStat, [user] => do return .user (.stat (← readUserId? user))
  | .decryptUserData, [user, password] => do return .user (.decrypt (← readUserId? user) password)
  | _, _ => none

/-! ### Commands -/

/-- What the command line asks for. -/
inductive Command
  | serve
  | status
  | stop
  /-- The configuration is checked, and all of it shown if asked for. -/
  | config (all : Bool)
  | monitor
  | operate (c : OperationCommand)
  deriving DecidableEq

/-- A command with the options that go with every command. -/
structure Invocation where
  configPath : String := "efs.toml"
  verbosity : Nat := 0
  /-- Whether the daemon is asked without the service. -/
  direct : Bool := false
  command : Command
  deriving DecidableEq

/-- The least level of what is logged. -/
def Invocation.logLevel (i : Invocation) (c : AppConfig) : String :=
  match i.verbosity with
  | 0 => c.logging.level
  | 1 => "info"
  | 2 => "debug"
  | _ => "trace"

/-- The command at the end of some words. -/
def commandAt? (l : Level) : Option Command :=
  match l.words with
  | ["serve"] => some .serve
  | ["status"] => some .status
  | ["stop"] => some .stop
  | ["config"] => some (.config (l.has showOption))
  | ["monitor"] => some .monitor
  | words => do
    let kind ← OperationKind.all.find? (·.words == words)
    return .operate (← operationCommand? kind (l.has fromInitOption) l.values)

/-- The values of an option at all levels. -/
def valuesOf (levels : List Level) (o : OptionSpec) : List String :=
  levels.flatMap fun l => l.options.filterMap fun (name, value) =>
    if name = o.long then some value else none

/-- What arguments ask for. -/
def parse (args : List String) : Parse Invocation := do
  let levels ← parseLevels [] false { words := [], spec := rootSpec } args
  match levels.head?.bind commandAt? with
  | none => .error .usage
  | some command =>
    return {
      configPath := (valuesOf levels configOption).head?.getD "efs.toml"
      verbosity := (valuesOf levels verboseOption).length
      direct := !(valuesOf levels directOption).isEmpty
      command }

example : (parse ["storage", "lock", "/data/a", "--direct"]).toOption =
    some { direct := true, command := .operate (.storage (.lock "/data/a")) } := by decide +kernel

example : (parse ["-vc", "a.toml", "config", "--show"]).toOption =
    some { configPath := "a.toml", verbosity := 1, command := .config true } := by decide +kernel

end Cli
end EfsControl
