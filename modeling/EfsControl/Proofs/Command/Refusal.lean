/-
# Why a command cannot be written

Writing a command fails at the first thing that is wrong with it: a prefix or
a subcommand that is no word comes before all arguments, and of the arguments
the first with a character that ends a line is named, with the first such
character in it.

A valid configuration has a prefix that is a word, and so is the subcommand of
every operation. What is left are the characters in a path or a password.

Key definitions: `Command.BadWord`, `Command.FirstForbidden`.
Key theorems: `Command.writeArgs_error_iff`, `Operation.textual_field`,
`encode_refusals`.
-/
import EfsControl.Proofs.Operation
import Mathlib.Data.List.Forall2

namespace EfsControl
namespace Command

/-! ### What is wrong with a command -/

/-- A text that is no command word: it is empty, or holds a blank, a double quote or a backslash. -/
def BadWord (word : String) : Prop :=
  word = "" ∨ ∃ c ∈ word.toList, Text.isBlank c = true ∨ c = '"' ∨ c = '\\'

/-- The characters that end a line. -/
def EndsLine (c : Char) : Prop := c = '\x00' ∨ c = '\n' ∨ c = '\r'

/-- The text of an argument that is a text or a secret. -/
def content? : Arg → Option (List Char)
  | .text s => some s.toList
  | .secret p => some p.expose.toList
  | .int _ => none

/-- An argument without a character that ends a line. -/
def Clean (a : Arg) : Prop := ∀ cs, content? a = some cs → ∀ c ∈ cs, ¬EndsLine c

/-- The first character of a text that ends a line. -/
def FirstEnd (cs : List Char) (found : Char) : Prop :=
  ∃ before after, cs = before ++ found :: after ∧ EndsLine found ∧ ∀ c ∈ before, ¬EndsLine c

/-- The first character of the arguments that ends a line, and the place of its argument. -/
structure FirstForbidden (args : List Arg) (index : Nat) (found : Char) : Prop where
  first : ∃ a cs, args[index]? = some a ∧ content? a = some cs ∧ FirstEnd cs found
  earlier : ∀ i < index, ∀ a, args[i]? = some a → Clean a

variable {word : String} {a : Arg} {args : List Arg} {index : Nat} {found c : Char} {cs : List Char}
  {e : EncodeError}

theorem not_badWord_iff : ¬BadWord word ↔ isWord word.toList = true := by
  simp only [BadWord, isWord_iff, not_or, not_exists, not_and, Bool.not_eq_true, ne_eq,
    String.toList_eq_nil_iff]

theorem badWord_iff : BadWord word ↔ isWord word.toList = false := by
  rw [← Bool.not_eq_true, ← not_badWord_iff, not_not]

theorem isForbidden_iff : isForbidden c = true ↔ EndsLine c := by
  simp only [isForbidden, EndsLine, Bool.or_eq_true, beq_iff_eq, or_assoc]

theorem clean_iff_sendable : Clean a ↔ Sendable a := by
  have htext (cs : List Char) :
      (∀ ds, some cs = some ds → ∀ c ∈ ds, ¬EndsLine c) ↔ ∀ c ∈ cs, isForbidden c = false := by
    simp only [Option.some.injEq, forall_eq', ← isForbidden_iff, Bool.not_eq_true]
  cases a with
  | text s => exact htext s.toList
  | secret p => exact htext p.expose.toList
  | int n => exact ⟨fun _ => sendable_int n, fun _ _ hcs => nomatch hcs⟩

/-! ### Arguments -/

theorem find?_isForbidden_iff : cs.find? isForbidden = some found ↔ FirstEnd cs found := by
  have hclean (before : List Char) :
      (∀ c ∈ before, (!isForbidden c) = true) ↔ ∀ c ∈ before, ¬EndsLine c := by
    simp only [← isForbidden_iff, Bool.not_eq_true, Bool.not_eq_true']
  rw [List.find?_eq_some_iff_append, isForbidden_iff]
  simp only [hclean]
  constructor
  · rintro ⟨hends, before, after, hcs, hbefore⟩
    exact ⟨before, after, hcs, hends, hbefore⟩
  · rintro ⟨before, after, hcs, hends, hbefore⟩
    exact ⟨hends, before, after, hcs, hbefore⟩

theorem escape_error_iff :
    escape index cs = .error e ↔
      ∃ found, FirstEnd cs found ∧ e = .forbiddenCharacter index found := by
  simp only [escape, ← find?_isForbidden_iff]
  cases cs.find? isForbidden <;> simp [eq_comm]

/-- An argument is refused for the first character in its text that ends a line. -/
theorem writeArg_error_iff :
    writeArg index a = .error e ↔
      ∃ cs found, content? a = some cs ∧ FirstEnd cs found ∧
        e = .forbiddenCharacter index found := by
  have htext (cs : List Char) (f : List Char → List Char × List Char) :
      (escape index cs).map f = .error e ↔ ∃ ds found, some cs = some ds ∧ FirstEnd ds found ∧
        e = .forbiddenCharacter index found := by
    simp only [Option.some.injEq, exists_and_left, exists_eq_left', ← escape_error_iff]
    cases escape index cs <;> simp [Except.map]
  cases a with
  | text s => exact htext s.toList _
  | secret p => exact htext p.expose.toList _
  | int n =>
    refine iff_of_false nofun ?_
    rintro ⟨cs, found, hcs, -⟩
    cases hcs

theorem firstForbidden_nil : ¬FirstForbidden [] index found := by
  rintro ⟨⟨a, cs, ha, -⟩, -⟩
  cases ha

theorem firstForbidden_cons {rest : List Arg} :
    FirstForbidden (a :: rest) index found ↔
      index = 0 ∧ (∃ cs, content? a = some cs ∧ FirstEnd cs found) ∨
      ∃ i, index = i + 1 ∧ Clean a ∧ FirstForbidden rest i found := by
  constructor
  · rintro ⟨⟨b, cs, hb, hcs, hfirst⟩, hearlier⟩
    cases index with
    | zero =>
      obtain rfl : a = b := Option.some.inj hb
      exact .inl ⟨rfl, cs, hcs, hfirst⟩
    | succ i =>
      have hclean : Clean a := hearlier 0 (Nat.succ_pos i) a rfl
      have hrest : FirstForbidden rest i found :=
        ⟨⟨b, cs, hb, hcs, hfirst⟩, fun j hj => hearlier (j + 1) (Nat.succ_lt_succ hj)⟩
      exact .inr ⟨i, rfl, hclean, hrest⟩
  · rintro (⟨rfl, cs, hcs, hfirst⟩ | ⟨i, rfl, hclean, ⟨b, cs, hb, hcs, hfirst⟩, hearlier⟩)
    · exact ⟨⟨a, cs, rfl, hcs, hfirst⟩, fun i hi => absurd hi (Nat.not_lt_zero i)⟩
    · refine ⟨⟨b, cs, hb, hcs, hfirst⟩, fun j hj d hd => ?_⟩
      cases j with
      | zero =>
        obtain rfl : a = d := Option.some.inj hd
        exact hclean
      | succ j => exact hearlier j (Nat.lt_of_succ_lt_succ hj) d hd

theorem writeArgs_cons_error_iff {rest : List Arg} :
    writeArgs index (a :: rest) = .error e ↔
      writeArg index a = .error e ∨ Clean a ∧ writeArgs (index + 1) rest = .error e := by
  rw [clean_iff_sendable, writeArgs]
  rcases writeArg_eq index a with ⟨ha, shown, hshown⟩ | ⟨ha, e', he'⟩
  · rw [hshown]
    cases writeArgs (index + 1) rest with
    | error e' => simp [ha, bind, Except.bind]
    | ok shown' => simp [bind, Except.bind, pure, Except.pure]
  · rw [he']
    simp [ha, bind, Except.bind]

/-- The arguments are refused for the first of them that is. -/
theorem writeArgs_error_iff :
    writeArgs index args = .error e ↔
      ∃ i found, FirstForbidden args i found ∧ e = .forbiddenCharacter (index + i) found := by
  induction args generalizing index with
  | nil =>
    refine iff_of_false nofun ?_
    rintro ⟨i, found, hfirst, -⟩
    exact firstForbidden_nil hfirst
  | cons a rest ih =>
    rw [writeArgs_cons_error_iff, writeArg_error_iff, ih]
    constructor
    · rintro (⟨cs, found, hcs, hend, rfl⟩ | ⟨hclean, i, found, hfirst, rfl⟩)
      · exact ⟨0, found, firstForbidden_cons.mpr (.inl ⟨rfl, cs, hcs, hend⟩), rfl⟩
      · have hplace : index + 1 + i = index + (i + 1) := by omega
        rw [hplace]
        exact ⟨i + 1, found, firstForbidden_cons.mpr (.inr ⟨i, rfl, hclean, hfirst⟩), rfl⟩
    · rintro ⟨i, found, hfirst, rfl⟩
      rcases firstForbidden_cons.mp hfirst with ⟨rfl, cs, hcs, hend⟩ | ⟨j, rfl, hclean, hrest⟩
      · exact .inl ⟨cs, found, hcs, hend, rfl⟩
      · have hplace : index + (j + 1) = index + 1 + j := by omega
        rw [hplace]
        exact .inr ⟨hclean, j, found, hrest, rfl⟩

end Command

/-! ### Whole commands -/

section
open Command
variable {seq : Option UInt32} {commandPrefix subcommand : String} {args : List Arg}
  {e : EncodeError}

/-- The three ways in which writing a command fails. -/
theorem encode_error_iff :
    encode seq commandPrefix subcommand args = .error e ↔
      BadWord commandPrefix ∧ e = .invalidCommandWord commandPrefix ∨
      ¬BadWord commandPrefix ∧ BadWord subcommand ∧ e = .invalidCommandWord subcommand ∨
      ¬BadWord commandPrefix ∧ ¬BadWord subcommand ∧
        ∃ index found, FirstForbidden args index found ∧ e = .forbiddenCharacter index found := by
  have hargs : (∃ index found, FirstForbidden args index found ∧
      e = .forbiddenCharacter index found) ↔ writeArgs 0 args = .error e := by
    simp only [writeArgs_error_iff, Nat.zero_add]
  rw [hargs, not_badWord_iff, not_badWord_iff, badWord_iff, badWord_iff, encode]
  cases hp : isWord commandPrefix.toList with
  | false =>
    simp only [Bool.not_false, if_true, Except.error.injEq, true_and, Bool.false_eq_true, false_and,
      or_false]
    exact eq_comm
  | true =>
    cases hs : isWord subcommand.toList with
    | false =>
      simp only [Bool.not_true, Bool.not_false, if_true, Except.error.injEq, true_and,
        Bool.false_eq_true, Bool.true_eq_false, if_false, false_and, and_false, false_or, or_false]
      exact eq_comm
    | true => cases writeArgs 0 args <;> simp [Except.map]

end

namespace Operation

/-- The argument that belongs to a field with a name. -/
inductive Holds : String → Arg → Prop
  | path (s : String) : Holds "path" (.text s)
  | password (p : Password) : Holds "password" (.secret p)
  | oldPassword (p : Password) : Holds "old_password" (.secret p)
  | newPassword (p : Password) : Holds "new_password" (.secret p)
  | userId (n : UInt32) : Holds "user_id" (userArg n)
  | fromInit (b : Bool) : Holds "from_init" (.int (if b then 1 else 0))

/-- The fields whose arguments are texts. -/
def textualFields : List String := ["path", "password", "old_password", "new_password"]

theorem Holds.textual {name : String} {a : Arg} {cs : List Char} (h : Holds name a)
    (hcs : Command.content? a = some cs) : name ∈ textualFields := by
  cases h with
  | path | password | oldPassword | newPassword => decide
  | userId | fromInit => cases hcs

/-- The arguments of an operation are its fields, in order. -/
theorem holds_args (op : Operation) :
    List.Forall₂ (fun field a => Holds field.1 a) op.fields op.args := by
  cases op <;> repeat constructor

/-- An argument with a text stands where a path or a password stands among the fields. -/
theorem textual_field {op : Operation} {index : Nat} {a : Arg} {cs : List Char}
    (ha : op.args[index]? = some a) (hcs : Command.content? a = some cs) :
    ∃ name shown, op.fields[index]? = some (name, shown) ∧ name ∈ textualFields := by
  obtain ⟨hlength, hholds⟩ := List.forall₂_iff_get.mp (holds_args op)
  obtain ⟨hlt, rfl⟩ := List.getElem?_eq_some_iff.mp ha
  have hfield := hholds index (hlength ▸ hlt) hlt
  exact ⟨_, _, List.getElem?_eq_getElem (hlength ▸ hlt), hfield.textual hcs⟩

end Operation

/-! ### The refusals -/

/-- **When a command cannot be written**: when a word is bad, which names the prefix before the
subcommand, and else when a text of its arguments holds a character that ends a line, which names
the first place and the first such character there. With a valid configuration an operation is
refused only for the latter, and the place is that of a path or a password. -/
theorem encode_refusals :
    (∀ (seq : Option UInt32) (commandPrefix subcommand : String) (args : List Arg),
      (∀ word, encode seq commandPrefix subcommand args = .error (.invalidCommandWord word) ↔
        Command.BadWord commandPrefix ∧ word = commandPrefix ∨
        ¬Command.BadWord commandPrefix ∧ Command.BadWord subcommand ∧ word = subcommand) ∧
      (∀ index found,
        encode seq commandPrefix subcommand args = .error (.forbiddenCharacter index found) ↔
        ¬Command.BadWord commandPrefix ∧ ¬Command.BadWord subcommand ∧
          Command.FirstForbidden args index found) ∧
      ((∃ command, encode seq commandPrefix subcommand args = .ok command) ↔
        ¬Command.BadWord commandPrefix ∧ ¬Command.BadWord subcommand ∧
          ∀ a ∈ args, Command.Clean a)) ∧
    ∀ (c : AppConfig) (op : Operation) (seq : Option UInt32) (e : EncodeError),
      c.validate = .ok () → op.encode seq c.daemon.commandPrefix = .error e →
      ∃ index found name shown, e = .forbiddenCharacter index found ∧
        Command.FirstForbidden op.args index found ∧
        op.fields[index]? = some (name, shown) ∧ name ∈ Operation.textualFields := by
  refine ⟨fun seq commandPrefix subcommand args => ⟨fun word => ?_, fun index found => ?_, ?_⟩, ?_⟩
  · rw [encode_error_iff]
    simp [eq_comm]
  · rw [encode_error_iff]
    simp
  · rw [encode_eq_ok_iff]
    simp only [Command.not_badWord_iff, Command.clean_iff_sendable]
  · intro c op seq e hvalid herror
    have hprefix := Command.not_badWord_iff.mpr (AppConfig.isWord_commandPrefix hvalid)
    have hsub := Command.not_badWord_iff.mpr op.isWord_subcommand
    obtain ⟨hbad, -⟩ | ⟨-, hbad, -⟩ | ⟨-, -, index, found, hfirst, rfl⟩ :=
      encode_error_iff.mp herror
    · exact absurd hbad hprefix
    · exact absurd hbad hsub
    · obtain ⟨a, cs, ha, hcs, -⟩ := hfirst.first
      obtain ⟨name, shown, hfield, hname⟩ := Operation.textual_field ha hcs
      exact ⟨index, found, name, shown, rfl, hfirst, hfield, hname⟩

/-- A line feed in a new password is found at the third argument. -/
theorem encode_refusals_newPassword :
    ({} : AppConfig).validate = .ok () ∧
    (Operation.changeUserDataPassword 0 ⟨"\""⟩ ⟨"a\nb\r"⟩).encode (some 1) "efs-server" =
      .error (.forbiddenCharacter 2 '\n') ∧
    ∃ name shown, (Operation.changeUserDataPassword 0 ⟨"\""⟩ ⟨"a\nb\r"⟩).fields[2]? =
      some (name, shown) ∧ name ∈ Operation.textualFields := by
  have hvalid : ({} : AppConfig).validate = .ok () := by decide +kernel
  have herror :
      (Operation.changeUserDataPassword 0 ⟨"\""⟩ ⟨"a\nb\r"⟩).encode (some 1) "efs-server" =
        .error (.forbiddenCharacter 2 '\n') := by decide +kernel
  obtain ⟨index, found, name, shown, he, -, hfield, hname⟩ :=
    encode_refusals.2 {} (.changeUserDataPassword 0 ⟨"\""⟩ ⟨"a\nb\r"⟩) (some 1) _ hvalid herror
  obtain ⟨rfl, rfl⟩ := EncodeError.forbiddenCharacter.inj he
  exact ⟨hvalid, herror, name, shown, hfield, hname⟩

end EfsControl
