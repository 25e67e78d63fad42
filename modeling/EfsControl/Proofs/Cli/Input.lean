/-
# Passwords from the standard input

A command takes as many lines of the input as hyphens stand in the places of
its passwords, the old password's line before the new one's, and leaves the
rest of the input as it is. Nothing else of the operation differs from what is
written. A password that holds no line end can therefore be typed instead of
being written in the command: the operation is the same, and so are the tokens
that the daemon is sent.

Key definitions: `FirstLine`, `Password.EndsIn`, `Password.Provided`,
`Password.Typing`, `Cli.OperationCommand.operation`.
Key theorems: `takeInputLine_iff`, `Password.ofLine_iff`,
`Password.mapM_found_iff`, `Cli.OperationCommand.withInput_iff`,
`Cli.OperationCommand.withInput_typed`.
-/
import EfsControl.Cli.Command
import EfsControl.Proofs.Command.Logged
import EfsControl.Proofs.Command.Veil
import EfsControl.Proofs.Text.Decimal

namespace EfsControl

/-! ### Lines of the input -/

/-- The first line of an input, with its line feed unless it is the last, and what comes after
it. -/
inductive FirstLine : (input line rest : List Char) → Prop
  | ended {line : List Char} (h : '\n' ∉ line) (rest : List Char) :
    FirstLine (line ++ '\n' :: rest) (line ++ ['\n']) rest
  | last {line : List Char} (h : '\n' ∉ line) : FirstLine line line []

theorem takeInputLine_ended {line : List Char} (h : '\n' ∉ line) (rest : List Char) :
    takeInputLine (line ++ '\n' :: rest) = (line ++ ['\n'], rest) := by
  induction line with
  | nil => rfl
  | cons c line ih =>
    have hc : c ≠ '\n' := fun hc => h (hc ▸ List.mem_cons_self)
    have hline : '\n' ∉ line := fun hm => h (List.mem_cons_of_mem c hm)
    simp only [List.cons_append, takeInputLine, if_neg hc, ih hline]

theorem takeInputLine_last {line : List Char} (h : '\n' ∉ line) :
    takeInputLine line = (line, []) := by
  induction line with
  | nil => rfl
  | cons c line ih =>
    have hc : c ≠ '\n' := fun hc => h (hc ▸ List.mem_cons_self)
    have hline : '\n' ∉ line := fun hm => h (List.mem_cons_of_mem c hm)
    simp only [takeInputLine, if_neg hc, ih hline]

theorem takeInputLine_iff {input line rest : List Char} :
    takeInputLine input = (line, rest) ↔ FirstLine input line rest := by
  constructor
  · rintro h
    by_cases hm : '\n' ∈ input
    · obtain ⟨body, after, rfl, hbody⟩ := List.eq_append_cons_of_mem hm
      rw [takeInputLine_ended hbody, Prod.mk.injEq] at h
      obtain ⟨rfl, rfl⟩ := h
      exact .ended hbody after
    · rw [takeInputLine_last hm, Prod.mk.injEq] at h
      obtain ⟨rfl, rfl⟩ := h
      exact .last hm
  · rintro (⟨hline, rest⟩ | hline)
    · exact takeInputLine_ended hline rest
    · exact takeInputLine_last hline

namespace Password

/-- The line is the password with carriage returns and line feeds behind it, as many as there
are. -/
def EndsIn (p : Password) (line : List Char) : Prop :=
  ∃ ends, line = p.expose.toList ++ ends ∧ (∀ c ∈ ends, c = '\r' ∨ c = '\n') ∧
    ∀ c ∈ p.expose.toList.getLast?, c ≠ '\r' ∧ c ≠ '\n'

theorem ofLine_iff {line : List Char} {p : Password} : ofLine line = p ↔ p.EndsIn line := by
  have hend (c : Char) : Text.isLineEnd c = true ↔ c = '\r' ∨ c = '\n' := by
    simp [Text.isLineEnd]
  have hnone (c : Char) : Text.isLineEnd c = false ↔ c ≠ '\r' ∧ c ≠ '\n' := by
    simp [Text.isLineEnd]
  constructor
  · rintro rfl
    obtain ⟨ends, hline, hends, hlast⟩ := Text.dropEndWhile_split Text.isLineEnd line
    have htext : (ofLine line).expose.toList = Text.dropEndWhile Text.isLineEnd line :=
      String.toList_ofList
    rw [EndsIn, htext]
    exact ⟨ends, hline, fun c hc => (hend c).mp (hends c hc), fun c hc => (hnone c).mp (hlast c hc)⟩
  · rintro ⟨ends, rfl, hends, hlast⟩
    have hdrop : Text.dropLineEnd (p.expose.toList ++ ends) = p.expose.toList := by
      rw [Text.dropLineEnd, Text.dropEndWhile_append fun c hc => (hend c).mpr (hends c hc)]
      exact Text.dropEndWhile_eq_self fun c hc => (hnone c).mpr (hlast c hc)
    rw [ofLine, hdrop, String.ofList_toList]

/-! ### Passwords one after the other -/

/-- What stands for passwords, the input, the passwords, and what is left of the input. A hyphen
takes the next line; anything else is the password. -/
inductive Provided : (written : List Password) → (input : List Char) → (passwords : List Password) →
    (rest : List Char) → Prop
  | nil (input : List Char) : Provided [] input [] input
  | literal {p : Password} {ps qs : List Password} {input rest : List Char} (hp : p ≠ ⟨"-"⟩)
    (h : Provided ps input qs rest) : Provided (p :: ps) input (p :: qs) rest
  | typed {q : Password} {ps qs : List Password} {input line after rest : List Char}
    (hline : FirstLine input line after) (hq : q.EndsIn line) (h : Provided ps after qs rest) :
    Provided (⟨"-"⟩ :: ps) input (q :: qs) rest

/-- What is found where a password is written. -/
def found (p : Password) : StateM (List Char) Password := resolve p.expose

theorem found_literal {p : Password} (hp : p ≠ ⟨"-"⟩) (input : List Char) :
    p.found input = (p, input) := if_neg fun h => hp (congrArg Password.mk h)

theorem found_typed {input line after : List Char} (h : FirstLine input line after) :
    found ⟨"-"⟩ input = (ofLine line, after) := by
  have htake := takeInputLine_iff.mpr h
  simp only [found, resolve, fromInput, if_true, htake]

theorem mapM_found_cons (p : Password) (ps : List Password) (input : List Char) :
    (p :: ps).mapM found input =
      ((p.found input).1 :: (ps.mapM found (p.found input).2).1,
        (ps.mapM found (p.found input).2).2) := by
  rw [List.mapM_cons]
  rfl

/-- Passwords are provided one after the other. -/
theorem mapM_found_iff {ps qs : List Password} {input rest : List Char} :
    ps.mapM found input = (qs, rest) ↔ Provided ps input qs rest := by
  constructor
  · intro h
    induction ps generalizing input qs with
    | nil =>
      cases h
      exact .nil _
    | cons p ps ih =>
      rw [mapM_found_cons, Prod.mk.injEq] at h
      obtain ⟨rfl, hrest⟩ := h
      have htail := ih (Prod.ext rfl hrest)
      by_cases hp : p = ⟨"-"⟩
      · subst hp
        have hline := takeInputLine_iff.mp (Prod.eta (takeInputLine input)).symm
        rw [found_typed hline] at htail ⊢
        exact .typed hline (ofLine_iff.mp rfl) htail
      · rw [found_literal hp] at htail ⊢
        exact .literal hp htail
  · intro h
    induction h with
    | nil => rfl
    | literal hp _ ih => rw [mapM_found_cons, found_literal hp, ih]
    | typed hline hq _ ih =>
      rw [mapM_found_cons]
      have hfound := found_typed hline
      rw [ofLine_iff.mpr hq] at hfound
      rw [hfound, ih]

/-! ### Typing passwords -/

/-- A way to give passwords: what is written in their places, and the lines that are typed. A
password is written itself, or a hyphen is written and the password is typed on a line of its own,
if it is one. -/
inductive Typing : (passwords written : List Password) → (typed : List Char) → Prop
  | nil : Typing [] [] []
  | literal {p : Password} {ps ws : List Password} {typed : List Char} (h : Typing ps ws typed) :
    Typing (p :: ps) (p :: ws) typed
  | typed {p : Password} {ps ws : List Password} {ending typed : List Char}
    (hp : ∀ c ∈ p.expose.toList, c ≠ '\r' ∧ c ≠ '\n')
    (hending : ending = ['\n'] ∨ ending = ['\r', '\n']) (h : Typing ps ws typed) :
    Typing (p :: ps) (⟨"-"⟩ :: ws) (p.expose.toList ++ ending ++ typed)

/-- A password on a line of its own is the password of that line. -/
theorem endsIn_line {p : Password} (hp : ∀ c ∈ p.expose.toList, c ≠ '\r' ∧ c ≠ '\n')
    {ending : List Char} (hending : ending = ['\n'] ∨ ending = ['\r', '\n']) :
    p.EndsIn (p.expose.toList ++ ending) := by
  refine ⟨ending, rfl, ?_, fun c hc => hp c (List.mem_of_getLast? hc)⟩
  rcases hending with rfl | rfl
  · simp
  · simp

/-- A password on a line of its own is on the first line of what it stands in front of. -/
theorem firstLine_line {p : Password} (hp : ∀ c ∈ p.expose.toList, c ≠ '\r' ∧ c ≠ '\n')
    {ending : List Char} (hending : ending = ['\n'] ∨ ending = ['\r', '\n']) (rest : List Char) :
    FirstLine (p.expose.toList ++ ending ++ rest) (p.expose.toList ++ ending) rest := by
  have hclean : '\n' ∉ p.expose.toList := fun hm => (hp _ hm).2 rfl
  rcases hending with rfl | rfl
  · rw [List.append_assoc]
    exact .ended hclean rest
  · have hreturn : '\n' ∉ p.expose.toList ++ ['\r'] := by simp [hclean]
    have hline := FirstLine.ended hreturn rest
    simpa using hline

/-- However passwords are typed, they are provided, and the input behind them is left. -/
theorem Typing.provided {ps ws : List Password} {typed : List Char} (h : Typing ps ws typed)
    (hps : ∀ p ∈ ps, p ≠ ⟨"-"⟩) (rest : List Char) : Provided ws (typed ++ rest) ps rest := by
  induction h with
  | nil => exact .nil rest
  | literal _ ih =>
    obtain ⟨hp, hps⟩ := List.forall_mem_cons.mp hps
    exact .literal hp (ih hps)
  | typed hp hending _ ih =>
    have htail := ih (List.forall_mem_cons.mp hps).2
    rw [List.append_assoc]
    exact .typed (firstLine_line hp hending _) (endsIn_line hp hending) htail

/-- Passwords that are written themselves are typed on no line. -/
theorem typing_self (ps : List Password) : Typing ps ps [] := by
  induction ps with
  | nil => exact .nil
  | cons p ps ih => exact .literal ih

end Password

/-! ### Operations -/

/-- Operations that differ in no password and nothing else are the same. -/
theorem Operation.eq_of_redacted {op op' : Operation} (h : op.redacted = op'.redacted)
    (hp : op.passwords = op'.passwords) : op = op' := by
  cases op <;> cases op' <;> simp_all [redacted, passwords]

namespace Cli

/-- The operation on a storage that is written, with what stands in the places of its passwords. -/
def StorageCommand.operation : StorageCommand → Operation
  | create path password => .createStorage path ⟨password⟩
  | unlock path password => .unlockStorage path ⟨password⟩
  | lock path => .lockStorage path
  | changePasswd path old new => .changeStoragePassword path ⟨old⟩ ⟨new⟩
  | remove path => .removeStorage path
  | stat path => .storageStat path
  | recover path password => .recoverAndRemoveStorage path ⟨password⟩
  | progress path => .encryptionProgress path

/-- The operation on a user's data that is written, with what stands in the places of its
passwords. -/
def UserCommand.operation : UserCommand → Operation
  | encrypt user password => .encryptUserData user ⟨password⟩
  | unlock user password fromInit => .unlockUserData user fromInit ⟨password⟩
  | lock user => .lockUserData user
  | changePasswd user old new => .changeUserDataPassword user ⟨old⟩ ⟨new⟩
  | remove user => .removeUserEncryptedData user
  | stat user => .userDataStat user
  | decrypt user password => .decryptUserData user ⟨password⟩

namespace OperationCommand

open Password (Provided Typing)

/-- The operation that is written, with what stands in the places of its passwords. -/
def operation : OperationCommand → Operation
  | storage c => c.operation
  | user c => c.operation

/-- Every operation can be written. -/
theorem exists_operation (op : Operation) : ∃ c : OperationCommand, c.operation = op := by
  cases op with
  | createStorage path p => exact ⟨.storage (.create path p.expose), rfl⟩
  | unlockStorage path p => exact ⟨.storage (.unlock path p.expose), rfl⟩
  | lockStorage path => exact ⟨.storage (.lock path), rfl⟩
  | changeStoragePassword path old new =>
    exact ⟨.storage (.changePasswd path old.expose new.expose), rfl⟩
  | removeStorage path => exact ⟨.storage (.remove path), rfl⟩
  | storageStat path => exact ⟨.storage (.stat path), rfl⟩
  | recoverAndRemoveStorage path p => exact ⟨.storage (.recover path p.expose), rfl⟩
  | encryptionProgress path => exact ⟨.storage (.progress path), rfl⟩
  | encryptUserData user p => exact ⟨.user (.encrypt user p.expose), rfl⟩
  | unlockUserData user fromInit p => exact ⟨.user (.unlock user p.expose fromInit), rfl⟩
  | lockUserData user => exact ⟨.user (.lock user), rfl⟩
  | changeUserDataPassword user old new =>
    exact ⟨.user (.changePasswd user old.expose new.expose), rfl⟩
  | removeUserEncryptedData user => exact ⟨.user (.remove user), rfl⟩
  | userDataStat user => exact ⟨.user (.stat user), rfl⟩
  | decryptUserData user p => exact ⟨.user (.decrypt user p.expose), rfl⟩

variable {c : OperationCommand} {op : Operation}

/-- The input changes nothing of what is written but the passwords. -/
theorem redacted_withInput (c : OperationCommand) (input : List Char) :
    (c.withInput input).1.redacted = c.operation.redacted := by
  cases c with
  | storage c => cases c <;> rfl
  | user c => cases c <;> rfl

/-- The passwords are taken from the input in their order. -/
theorem passwords_withInput (c : OperationCommand) (input : List Char) :
    c.operation.passwords.mapM Password.found input =
      ((c.withInput input).1.passwords, (c.withInput input).2) := by
  cases c with
  | storage c => cases c <;> rfl
  | user c => cases c <;> rfl

/-- What a command takes from the input, and what it leaves there. -/
theorem withInput_iff {input rest : List Char} : c.withInput input = (op, rest) ↔
    op.redacted = c.operation.redacted ∧
      Provided c.operation.passwords input op.passwords rest := by
  have hpasswords := c.passwords_withInput input
  have hredacted := c.redacted_withInput input
  rw [← Password.mapM_found_iff, hpasswords]
  constructor
  · intro h
    rw [h] at hredacted ⊢
    exact ⟨hredacted, rfl⟩
  · rintro ⟨hsame, h⟩
    rw [Prod.mk.injEq] at h
    exact Prod.ext (Operation.eq_of_redacted (hredacted.trans hsame.symm) h.1) h.2

/-- An operation is the same whether its passwords are written or typed. -/
theorem withInput_of_typing {typed : List Char} (h : c.operation.redacted = op.redacted)
    (htyping : Typing op.passwords c.operation.passwords typed)
    (hop : ∀ p ∈ op.passwords, p ≠ ⟨"-"⟩) (rest : List Char) :
    c.withInput (typed ++ rest) = (op, rest) :=
  withInput_iff.mpr ⟨h.symm, htyping.provided hop rest⟩

/-- **Typed passwords reach their places.** Whatever is written in the places of the passwords of a
command, and whatever the input: the operation that is performed is the one that is written but for
its passwords, each hyphen stands for the next line of the input without its line ends, the old
password's line before the new one's, and the input behind these lines is left. In particular
passwords without line ends, none of them a hyphen, may be typed on lines of their own with the same
outcome as when they are written: the same operation, which is encoded as the same tokens. -/
theorem withInput_typed (c : OperationCommand) (input : List Char) :
    (∀ op rest, c.withInput input = (op, rest) ↔
      op.redacted = c.operation.redacted ∧
        Provided c.operation.passwords input op.passwords rest) ∧
    ((∀ p ∈ c.operation.passwords, p ≠ ⟨"-"⟩) →
      c.withInput input = (c.operation, input) ∧
      ∀ (written : OperationCommand) (typed : List Char),
        written.operation.redacted = c.operation.redacted →
        Typing c.operation.passwords written.operation.passwords typed →
        written.withInput (typed ++ input) = (c.operation, input) ∧
        ∀ seq commandPrefix,
          (written.withInput (typed ++ input)).1.encode seq commandPrefix =
            c.operation.encode seq commandPrefix ∧
          ∀ command, c.operation.encode seq commandPrefix = .ok command →
            tokenize command.wire = .ok ((seq.map fun n => toString n.toNat).toList ++
              commandPrefix :: c.operation.subcommand :: c.operation.args.map Arg.spelled)) := by
  refine ⟨fun op rest => withInput_iff, fun hop => ⟨?_, ?_⟩⟩
  · exact withInput_of_typing rfl (Password.typing_self _) hop input
  · intro written typed hsame htyping
    have hwritten := withInput_of_typing hsame htyping hop input
    refine ⟨hwritten, fun seq commandPrefix => ⟨?_, fun command hc => (tokenize_encoded hc).1⟩⟩
    rw [hwritten]

/-- Both passwords of a change are typed, the first with a carriage return behind it, and more of
the input follows. -/
theorem withInput_typed_change :
    withInput (.storage (.changePasswd "/a b" "-" "-")) "old -\r\n\"new\\\nrest".toList =
      (.changeStoragePassword "/a b" ⟨"old -"⟩ ⟨"\"new\\"⟩, "rest".toList) := by
  let c : OperationCommand := .storage (.changePasswd "/a b" "old -" "\"new\\")
  have hop : ∀ p ∈ c.operation.passwords, p ≠ ⟨"-"⟩ := by decide
  have htyping : Typing [⟨"old -"⟩, ⟨"\"new\\"⟩] [⟨"-"⟩, ⟨"-"⟩] "old -\r\n\"new\\\n".toList :=
    .typed (by simp) (.inr rfl) (.typed (by simp) (.inl rfl) .nil)
  exact (((withInput_typed c "rest".toList).2 hop).2
    (.storage (.changePasswd "/a b" "-" "-")) _ rfl htyping).1

end OperationCommand
end Cli
end EfsControl
