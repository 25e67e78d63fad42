/-
# Which operations can be asked for

With a valid configuration the words of a command can be written whatever the
operation. So an operation can be asked for exactly when none of its texts
holds a character that ends a line.

Key theorems: `AppConfig.validate_eq_ok_iff`, `AppConfig.isWord_commandPrefix`,
`Operation.encode_eq_ok_iff`.
-/
import EfsControl.Config
import EfsControl.Operation
import EfsControl.Proofs.Command.Wire

namespace EfsControl

/-- A configuration is valid when no check fails. -/
theorem AppConfig.validate_eq_ok_iff {c : AppConfig} :
    c.validate = .ok () ↔ ∀ check ∈ c.checks, check.1 = true := by
  unfold validate
  cases h : c.checks.find? fun check => !check.1 with
  | none =>
    refine iff_of_true rfl fun check hc => ?_
    simpa using List.find?_eq_none.mp h check hc
  | some check =>
    refine iff_of_false nofun fun hall => ?_
    have hc := List.find?_some h
    simp [hall check (List.mem_of_find?_eq_some h)] at hc

/-- The prefix of a valid configuration is a command word. -/
theorem AppConfig.isWord_commandPrefix {c : AppConfig} (h : c.validate = .ok ()) :
    Command.isWord c.daemon.commandPrefix.toList = true := by
  rw [validate_eq_ok_iff] at h
  simp only [checks, List.forall_mem_cons] at h
  obtain ⟨-, hne, hclean, -⟩ := h
  have hempty : c.daemon.commandPrefix.toList.isEmpty = false := by simpa using hne
  rw [Command.isWord, hempty, Bool.not_false, Bool.true_and]
  exact hclean

namespace Operation

theorem isWord_subcommand (op : Operation) : Command.isWord op.subcommand.toList = true := by
  cases op <;> simp only [subcommand] <;> decide +kernel

/-- An operation can be written when none of its arguments ends the line. -/
theorem encode_eq_ok_iff {op : Operation} {seq : Option UInt32} {c : AppConfig}
    (h : c.validate = .ok ()) :
    (∃ command, op.encode seq c.daemon.commandPrefix = .ok command) ↔
      ∀ a ∈ op.args, Command.Sendable a := by
  rw [encode, EfsControl.encode_eq_ok_iff]
  simp only [AppConfig.isWord_commandPrefix h, op.isWord_subcommand, true_and]

end Operation
end EfsControl
