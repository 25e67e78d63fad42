/-
# What a command shows of its secrets

An argument under the veil is the argument with a fixed text in the place of a
secret that can be written. Whether a command can be written, what the log says
of it and how its arguments are shown can be told from the arguments under the
veil. Operations that differ in their passwords only have the same arguments
under the veil, if the passwords can be written.

Key definitions: `Arg.veiled`, `EncodedCommand.veiled`, `Operation.redacted`.
Key theorems: `encode_veiled`, `Operation.args_veiled`,
`Operation.describe_redacted`.
-/
import EfsControl.Operation
import EfsControl.Proofs.Command.Wire

namespace EfsControl

/-! ### Arguments -/

/-- An argument with a fixed text in the place of a secret, unless the secret cannot be written. -/
def Arg.veiled : Arg → Arg
  | .secret p =>
    if p.expose.toList.any Command.isForbidden then .secret p else .secret ⟨Password.redacted⟩
  | a => a

namespace Arg

/-- What stands for a secret under the veil. -/
theorem veiled_secret (p : Password) : (Arg.secret p).veiled =
    if p.expose.toList.any Command.isForbidden then .secret p else .secret ⟨Password.redacted⟩ :=
  rfl

/-- A secret that can be written is not told from another. -/
theorem veiled_sendable {p : Password} (h : Command.Sendable (.secret p)) :
    (Arg.secret p).veiled = .secret ⟨Password.redacted⟩ := by
  have hnone : p.expose.toList.any Command.isForbidden = false := by
    rw [List.any_eq_false]
    intro c hc
    rw [Bool.not_eq_true]
    exact h c hc
  rw [veiled_secret, hnone, if_neg Bool.false_ne_true]

@[simp] theorem veiled_veiled (a : Arg) : a.veiled.veiled = a.veiled := by
  cases a with
  | text s => rfl
  | int n => rfl
  | secret p =>
    by_cases h : p.expose.toList.any Command.isForbidden = true
    · rw [veiled_secret, if_pos h, veiled_secret, if_pos h]
    · have hmark : Password.redacted.toList.any Command.isForbidden = false := by decide +kernel
      rw [veiled_secret, if_neg h, veiled_secret, hmark, if_neg Bool.false_ne_true]

@[simp] theorem describe_veiled (a : Arg) : a.veiled.describe = a.describe := by
  cases a with
  | text s => rfl
  | int n => rfl
  | secret p =>
    rw [veiled_secret]
    split <;> rfl

end Arg

namespace Command

/-- What the log says of an argument. -/
def logged {ε α β : Type} : Except ε (α × β) → Except ε β := Except.map Prod.snd

/-- Whether an argument can be written, and what is logged of it, shows under the veil. -/
theorem writeArg_veiled (index : Nat) (a : Arg) :
    logged (writeArg index a.veiled) = logged (writeArg index a) := by
  cases a with
  | text s => rfl
  | int n => rfl
  | secret p =>
    rw [Arg.veiled_secret]
    split
    · rfl
    · rename_i h
      have hnone : p.expose.toList.find? isForbidden = none := by
        rw [List.find?_eq_none]
        intro c hc hf
        exact h (List.any_eq_true.mpr ⟨c, hc, hf⟩)
      have hmark : Password.redacted.toList.find? isForbidden = none := by decide +kernel
      simp only [writeArg, escape, hnone, hmark]
      rfl

/-- Writing arguments one after the other, as far as the log is concerned. -/
theorem logged_writeArgs_cons (index : Nat) (a : Arg) (args : List Arg) :
    logged (writeArgs index (a :: args)) =
      match logged (writeArg index a), logged (writeArgs (index + 1) args) with
      | .error e, _ => .error e
      | .ok _, .error e => .error e
      | .ok shown, .ok showns => .ok (' ' :: shown ++ showns) := by
  rw [writeArgs]
  cases writeArg index a with
  | error e => rfl
  | ok w => cases writeArgs (index + 1) args <;> rfl

theorem writeArgs_veiled (index : Nat) (args : List Arg) :
    logged (writeArgs index (args.map Arg.veiled)) = logged (writeArgs index args) := by
  induction args generalizing index with
  | nil => rfl
  | cons a args ih =>
    rw [List.map_cons, logged_writeArgs_cons, logged_writeArgs_cons, writeArg_veiled, ih]

end Command

/-! ### Commands -/

/-- A command of which no more is known than what is logged. -/
def EncodedCommand.veiled (c : EncodedCommand) : EncodedCommand := ⟨c.loggable, c.loggable⟩

/-- Whether a command can be written, and what is logged of it, shows under the veil. -/
theorem encode_veiled (seq : Option UInt32) (commandPrefix subcommand : String) (args : List Arg) :
    (encode seq commandPrefix subcommand (args.map Arg.veiled)).map EncodedCommand.veiled =
      (encode seq commandPrefix subcommand args).map EncodedCommand.veiled := by
  have hargs := Command.writeArgs_veiled 0 args
  unfold encode
  split
  · rfl
  · split
    · rfl
    · revert hargs
      cases Command.writeArgs 0 (args.map Arg.veiled) with
      | error e =>
        cases Command.writeArgs 0 args with
        | error e' =>
          intro h
          cases h
          rfl
        | ok w => nofun
      | ok v =>
        cases Command.writeArgs 0 args with
        | error e => nofun
        | ok w =>
          intro h
          have hshown : v.2 = w.2 := by
            have := Except.ok.inj h
            exact this
          simp only [Except.map, EncodedCommand.veiled, hshown]

/-! ### Operations -/

namespace Operation

/-- The operation with a fixed text in the place of each password. -/
def redacted : Operation → Operation
  | .createStorage path _ => .createStorage path ⟨Password.redacted⟩
  | .unlockStorage path _ => .unlockStorage path ⟨Password.redacted⟩
  | .changeStoragePassword path _ _ =>
    .changeStoragePassword path ⟨Password.redacted⟩ ⟨Password.redacted⟩
  | .recoverAndRemoveStorage path _ => .recoverAndRemoveStorage path ⟨Password.redacted⟩
  | .encryptUserData user _ => .encryptUserData user ⟨Password.redacted⟩
  | .unlockUserData user fromInit _ => .unlockUserData user fromInit ⟨Password.redacted⟩
  | .changeUserDataPassword user _ _ =>
    .changeUserDataPassword user ⟨Password.redacted⟩ ⟨Password.redacted⟩
  | .decryptUserData user _ => .decryptUserData user ⟨Password.redacted⟩
  | op => op

/-- The passwords of an operation, in order. -/
def passwords : Operation → List Password
  | .createStorage _ p | .unlockStorage _ p | .recoverAndRemoveStorage _ p
  | .encryptUserData _ p | .unlockUserData _ _ p | .decryptUserData _ p => [p]
  | .changeStoragePassword _ old new | .changeUserDataPassword _ old new => [old, new]
  | _ => []

variable (op : Operation)

theorem subcommand_redacted : op.redacted.subcommand = op.subcommand := by cases op <;> rfl

theorem resultKind_redacted : op.redacted.resultKind = op.resultKind := by cases op <;> rfl

theorem describe_redacted : op.redacted.describe = op.describe := by cases op <;> rfl

/-- The arguments of an operation whose passwords can be written are those of any other that differs
in them only, under the veil. -/
theorem args_veiled (h : ∀ p ∈ op.passwords, Command.Sendable (.secret p)) :
    op.args.map Arg.veiled = op.redacted.args := by
  cases op <;>
    simp only [passwords, List.forall_mem_cons, List.not_mem_nil, false_implies, implies_true,
      and_true] at h <;>
    simp only [args, redacted, userArg, List.map_cons, List.map_nil, Arg.veiled_sendable, h] <;> rfl

end Operation
end EfsControl
