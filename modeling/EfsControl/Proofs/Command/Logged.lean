/-
# The logged line of a command

The line that is logged is the line of the same command with the mark in the
place of each secret: it is written the same way, from the same number, words
and arguments. So it splits like any line of a command, into the tokens of the
line that is sent with one token in the place of each secret.

Key definitions: `Arg.marked`, `Arg.spelled`.
Key theorems: `encode_marked`, `tokenize_encoded`.
-/
import EfsControl.Proofs.Command.Wire

namespace EfsControl

namespace Arg

/-- The argument with the mark in the place of a secret. -/
def marked : Arg → Arg
  | .secret _ => .text Password.redacted
  | a => a

/-- The argument as a text of its own: an integer in decimal, anything else as it is. -/
def spelled (a : Arg) : String := String.ofList a.chars

end Arg

namespace Command

variable {index : Nat} {wire shown : List Char}

/-- What is logged of an argument is how the marked argument is written. -/
theorem writeArg_marked {a : Arg} (h : writeArg index a = .ok (wire, shown)) :
    writeArg index a.marked = .ok (shown, shown) := by
  cases a with
  | int n =>
    cases h
    rfl
  | text s =>
    show writeArg index (.text s) = _
    cases he : escape index s.toList with
    | error e =>
      rw [writeArg, he] at h
      cases h
    | ok e =>
      rw [writeArg, he] at h
      cases h
      rw [writeArg, he]
      rfl
  | secret p =>
    -- The mark needs neither quotes nor backslashes.
    have hmark : escape index Password.redacted.toList = .ok Password.redacted.toList := rfl
    cases he : escape index p.expose.toList with
    | error e =>
      rw [writeArg, he] at h
      cases h
    | ok e =>
      rw [writeArg, he] at h
      cases h
      show writeArg index (.text Password.redacted) = _
      rw [writeArg, hmark]
      rfl

theorem writeArgs_marked {args : List Arg} (h : writeArgs index args = .ok (wire, shown)) :
    writeArgs index (args.map Arg.marked) = .ok (shown, shown) := by
  induction args generalizing index wire shown with
  | nil =>
    cases h
    rfl
  | cons a args ih =>
    unfold writeArgs at h
    cases ha : writeArg index a with
    | error e =>
      rw [ha] at h
      cases h
    | ok w =>
      cases hargs : writeArgs (index + 1) args with
      | error e =>
        rw [ha, hargs] at h
        cases h
      | ok ws =>
        rw [ha, hargs] at h
        cases h
        rw [List.map_cons, writeArgs, writeArg_marked ha, ih hargs]
        rfl

end Command

section
variable {seq : Option UInt32} {commandPrefix subcommand : String} {args : List Arg}
  {c : EncodedCommand}

/-- What is logged of a command is the line of the marked command, which is logged as it is sent. -/
theorem encode_marked (h : encode seq commandPrefix subcommand args = .ok c) :
    encode seq commandPrefix subcommand (args.map Arg.marked) = .ok ⟨c.loggable, c.loggable⟩ := by
  obtain ⟨hp, hs, -⟩ := encode_eq_ok_iff.1 ⟨c, h⟩
  unfold encode at h ⊢
  simp only [hp, hs, Bool.not_true, Bool.false_eq_true, if_false] at h ⊢
  cases hargs : Command.writeArgs 0 args with
  | error e =>
    rw [hargs] at h
    cases h
  | ok w =>
    rw [hargs] at h
    cases h
    rw [Command.writeArgs_marked hargs]
    rfl

/-- The tokens of a command: the number in decimal, the prefix, the subcommand and the arguments. -/
theorem tokens_eq (seq : Option UInt32) (commandPrefix subcommand : String) (args : List Arg) :
    (Command.tokens seq commandPrefix subcommand args).map String.ofList =
      (seq.map fun n => toString n.toNat).toList ++
        commandPrefix :: subcommand :: args.map Arg.spelled := by
  have hargs : (args.map Arg.chars).map String.ofList = args.map Arg.spelled := List.map_map
  unfold Command.tokens
  rw [List.map_append, List.map_cons, List.map_cons, hargs, String.ofList_toList,
    String.ofList_toList]
  cases seq <;> rfl

/-- **Splitting undoes writing.** The line of a command that can be written splits into its number
in decimal, if it has one, the prefix, the subcommand and the arguments, in order; and the line that
is logged into the same, with one token in the place of each secret. -/
theorem tokenize_encoded (h : encode seq commandPrefix subcommand args = .ok c) :
    tokenize c.wire = .ok ((seq.map fun n => toString n.toNat).toList ++
      commandPrefix :: subcommand :: args.map Arg.spelled) ∧
    tokenize c.loggable = .ok ((seq.map fun n => toString n.toNat).toList ++
      commandPrefix :: subcommand ::
        args.map fun a => if a.isSecret then "[REDACTED]" else a.spelled) := by
  have hmarked : ∀ a : Arg, a.marked.spelled = if a.isSecret then "[REDACTED]" else a.spelled := by
    intro a
    cases a with
    | secret p => exact String.ofList_toList
    | _ => rfl
  have hargs : (args.map Arg.marked).map Arg.spelled =
      args.map fun a => if a.isSecret then "[REDACTED]" else a.spelled := by
    rw [List.map_map]
    exact List.map_congr_left fun a _ => hmarked a
  constructor
  · rw [tokenize_wire h, tokens_eq]
  · have hlog : tokenize c.loggable = _ := tokenize_wire (encode_marked h)
    rw [hlog, tokens_eq, hargs]

/-- A numbered command with a blank in an argument, an empty argument, a negative integer and a
secret with a quote and a backslash in it. -/
theorem tokenize_encoded_create :
    encode (some 7) "efs" "create" [.text "/a b", .text "", .int (-3), .secret ⟨"p\"\\"⟩] =
      .ok ⟨"7 efs create \"/a b\" \"\" -3 p\\\"\\\\", "7 efs create \"/a b\" \"\" -3 [REDACTED]"⟩ ∧
    tokenize "7 efs create \"/a b\" \"\" -3 p\\\"\\\\" =
      .ok ["7", "efs", "create", "/a b", "", "-3", "p\"\\"] ∧
    tokenize "7 efs create \"/a b\" \"\" -3 [REDACTED]" =
      .ok ["7", "efs", "create", "/a b", "", "-3", "[REDACTED]"] := by
  have h : encode (some 7) "efs" "create" [.text "/a b", .text "", .int (-3), .secret ⟨"p\"\\"⟩] =
      .ok ⟨"7 efs create \"/a b\" \"\" -3 p\\\"\\\\",
        "7 efs create \"/a b\" \"\" -3 [REDACTED]"⟩ := by decide +kernel
  obtain ⟨hwire, hlog⟩ := tokenize_encoded h
  refine ⟨h, hwire.trans ?_, hlog.trans ?_⟩
  · exact congrArg Except.ok (by decide +kernel)
  · exact congrArg Except.ok (by decide +kernel)

end
end EfsControl
