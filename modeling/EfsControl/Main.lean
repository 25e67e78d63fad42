/-
# The program

Reads the arguments, the configuration and the standard input, and carries the
command out. Sockets are out of reach here: a service or a daemon that is not
there is reported as such, and one that is there cannot be talked to.
-/
import EfsControl.Cli.Report

namespace EfsControl
namespace Cli

/-- The system's text for what cannot be done here. -/
def notSupported : String := "Operation not supported (os error 95)"

/-- The content of a file, if there is one. -/
def readFile? (path : String) : IO (Option ByteArray) := do
  try
    return some (← IO.FS.readBinFile path)
  catch
    | .noFileOrDirectory .. => return none
    | e => throw e

/-- Whether something is at a path, even if it cannot be read. -/
def isThere (path : String) : IO Bool := do
  try
    return (← readFile? path).isSome
  catch _ => return true

/-- The configuration at a path. -/
def readConfig (path : String) : IO (Except String AppConfig) := do
  try
    return loadConfig path ((← readFile? path).map (·.toList))
  catch _ => return .error (loadError path)

/-- The password that is written, or the one in the next line of the standard input. -/
def readPassword (written : String) : IO Password := do
  if written = Password.fromInput then return .ofLine (← (← IO.getStdin).getLine).toList
  else return ⟨written⟩

/-- Why the service cannot be asked. -/
def unreachable (c : AppConfig) : IO ClientError := do
  let path := c.service.socketPath
  if ← isThere path then return .connect path notSupported else return .notRunning path

/-- Carries out a command. -/
def carryOut (c : AppConfig) (i : Invocation) : IO Result := do
  match i.command with
  | .config all => return configResult i.configPath c all
  | .serve => return serveResult c.service.socketPath (some notSupported)
  | .status => return statusResult (.error (← unreachable c))
  | .stop => return stopResult (.error (← unreachable c))
  | .monitor => return .failed (unreachableError c.daemon.socketPath)
  | .operate command =>
    let _ ← command.intoOperation readPassword
    return .failed (if i.direct then unreachableError c.daemon.socketPath else remoteError)

/-- Runs a command line. -/
def runProgram (args : List String) : IO Result := do
  match parse args with
  | .error e => return interrupted {} e
  | .ok i =>
    match ← readConfig i.configPath with
    | .error message => return .failed message
    | .ok c => carryOut c i

end Cli
end EfsControl

/-- The program: prints what a command answers, and ends with its exit status. -/
def main (args : List String) : IO UInt32 := do
  let result ← EfsControl.Cli.runProgram args
  (← IO.getStdout).putStr result.output
  if let some message := result.error then
    (← IO.getStderr).putStrLn ("Error: " ++ message)
  return UInt32.ofNat result.exit
