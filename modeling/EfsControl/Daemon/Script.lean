/-
# A scripted daemon

A script says what a daemon does about a command. The first rule that a
command meets decides; without one the daemon answers `0`.

Key definitions: `Reaction`, `Rule`, `Script.reactions`.
-/
import EfsControl.Daemon.Command
import EfsControl.Reply

namespace EfsControl

/-- One thing that a daemon does about a command. -/
inductive Reaction
  /-- A reply with the number of the command. -/
  | reply (code : Nat) (text : String)
  /-- A line as it stands. -/
  | line (text : String)
  /-- A pause, in milliseconds. -/
  | pause (ms : Nat)
  | hangUp
  deriving DecidableEq

/-- What a daemon does about the commands that meet some conditions. -/
structure Rule where
  subcommand : Option String := none
  args : Option (List String) := none
  /-- The place of the command among all that the daemon has received, from one on. -/
  nth : Option Nat := none
  reactions : List Reaction
  deriving DecidableEq

/-- Whether a command, in its place, meets the conditions of a rule. -/
def Rule.fits (r : Rule) (command : ReceivedCommand) (place : Nat) : Bool :=
  (r.subcommand.all (· == command.subcommand)) && (r.args.all (· == command.args)) &&
    (r.nth.all (· == place))

/-- What a daemon does about commands. -/
abbrev Script := List Rule

/-- What a daemon does about a command in its place. -/
def Script.reactions (s : Script) (command : ReceivedCommand) (place : Nat) : List Reaction :=
  match s.find? (·.fits command place) with
  | some r => r.reactions
  | none => [.reply 200 "0"]

end EfsControl
