/-
# What ends the frame of a command

The writer adds spaces, quotes and backslashes to the words and arguments of
a command and no other character. No argument holds a character that ends a
line. The words are only looked at for blanks, quotes and backslashes, and
NUL is none of these: it stands in a line exactly where it stood in a word.

Key theorems: `count_spaced`, `count_wire`, `count_frame`.
-/
import EfsControl.Config
import EfsControl.Operation
import EfsControl.Proofs.Command.Wire
import EfsControl.Proofs.Text.Decimal
import EfsControl.Proofs.Text.Utf8
import Mathlib.Algebra.BigOperators.Group.List.Basic
import Mathlib.Algebra.GroupWithZero.Nat

namespace EfsControl

namespace Command

/-! ### Characters of a line -/

theorem count_escaped {d : Char} (hb : d ≠ '\\') (hq : d ≠ '"') (cs : List Char) :
    (escaped cs).count d = cs.count d := by
  have hone (c : Char) : (escapeChar c).count d = [c].count d := by
    unfold escapeChar
    split
    · exact List.count_cons_of_ne hb.symm
    · rfl
  have hall : (cs.flatMap escapeChar).count d = cs.count d := by
    induction cs with
    | nil => rfl
    | cons c cs ih =>
      rw [List.flatMap_cons, List.count_append, hone, ih, ← List.count_append]
      rfl
  unfold escaped
  split
  · rw [List.count_append, List.count_cons_of_ne hq.symm, List.count_singleton, hall,
      if_neg (by simpa using hq.symm), Nat.add_zero]
  · exact hall

/-- A character that the writer adds nowhere is in a line as often as in its tokens. -/
theorem count_spaced {d : Char} (hs : d ≠ ' ') (hb : d ≠ '\\') (hq : d ≠ '"')
    (ts : List (List Char)) : (spaced ts).count d = (ts.map (·.count d)).sum := by
  have hmore (ts : List (List Char)) :
      (ts.flatMap fun t => ' ' :: escaped t).count d = (ts.map (·.count d)).sum := by
    induction ts with
    | nil => rfl
    | cons t ts ih =>
      rw [List.flatMap_cons, List.count_append, List.count_cons_of_ne hs.symm,
        count_escaped hb hq, ih, List.map_cons, List.sum_cons]
  cases ts with
  | nil => rfl
  | cons t ts =>
    rw [spaced, List.count_append, count_escaped hb hq, hmore, List.map_cons, List.sum_cons]

theorem count_eq_zero_of_isWord {d : Char} (hd : Text.isBlank d = true) {cs : List Char}
    (h : isWord cs = true) : cs.count d = 0 := by
  refine List.count_eq_zero.2 fun hm => ?_
  have hblank := ((isWord_iff.1 h).2 d hm).1
  rw [hd] at hblank
  exact Bool.false_ne_true hblank.symm

end Command

section
variable {seq : Option UInt32} {commandPrefix subcommand : String} {args : List Arg}
  {c : EncodedCommand}

/-- A character that ends a line is in a command as often as in its words. -/
theorem count_wire {d : Char} (hd : Command.isForbidden d = true)
    (h : encode seq commandPrefix subcommand args = .ok c) :
    c.wire.toList.count d = commandPrefix.toList.count d + subcommand.toList.count d := by
  have hargs : ∀ a ∈ args, Command.Sendable a := (encode_eq_ok_iff.1 ⟨c, h⟩).2.2
  have hnumber : ((seq.map fun n => Text.digits n.toNat).toList.map (·.count d)).sum = 0 := by
    cases seq with
    | none => rfl
    | some n =>
      have hn : (Text.digits n.toNat).count d = 0 :=
        List.count_eq_zero.2 fun hm =>
          Text.ne_of_test hd (Command.sendable_int n.toNat d hm) rfl
      simp [hn]
  have hzero : ((args.map Arg.chars).map (·.count d)).sum = 0 := by
    refine List.sum_eq_zero fun n hn => ?_
    obtain ⟨cs, hcs, rfl⟩ := List.mem_map.1 hn
    obtain ⟨a, ha, rfl⟩ := List.mem_map.1 hcs
    exact List.count_eq_zero.2 fun hm => Text.ne_of_test hd (hargs a ha d hm) rfl
  rw [encode_wire h, String.toList_ofList, Command.count_spaced
    (Text.ne_of_test hd (by decide)) (Text.ne_of_test hd (by decide))
    (Text.ne_of_test hd (by decide)), Command.tokens, List.map_append, List.sum_append,
    hnumber, List.map_cons, List.map_cons, List.sum_cons, List.sum_cons, hzero]
  omega

/-- A line feed or a carriage return is in no command. -/
theorem count_wire_blank {d : Char} (hd : Command.isForbidden d = true)
    (hb : Text.isBlank d = true) (h : encode seq commandPrefix subcommand args = .ok c) :
    c.wire.toList.count d = 0 := by
  obtain ⟨hp, hs, -⟩ := encode_eq_ok_iff.1 ⟨c, h⟩
  rw [count_wire hd h, Command.count_eq_zero_of_isWord hb hp, Command.count_eq_zero_of_isWord hb hs]

end

/-! ### Bytes of a frame -/

/-- The character that ends a line. -/
def Framing.endChar : Framing → Char
  | .nul => '\x00'
  | .newline => '\n'

theorem Framing.terminator_eq (framing : Framing) :
    framing.terminator = UInt8.ofNat framing.endChar.toNat := by
  cases framing <;> rfl

/-- The byte that ends a line is in the bytes of a text as often as its character in the text. -/
theorem Framing.count_terminator (framing : Framing) (s : String) :
    (Utf8.ofString s).count framing.terminator = s.toList.count framing.endChar := by
  rw [terminator_eq]
  exact Utf8.count_encode (by cases framing <;> decide) s.toList

theorem count_frame (c : EncodedCommand) (framing : Framing) :
    (c.frame framing).count framing.terminator = c.wire.toList.count framing.endChar + 1 := by
  rw [EncodedCommand.frame, List.count_append, framing.count_terminator, List.count_singleton_self]

/-! ### The command of an operation -/

theorem Operation.count_subcommand (op : Operation) {d : Char} (hd : Command.isForbidden d = true) :
    op.subcommand.toList.count d = 0 := by
  have hnone : op.subcommand.toList.all (fun c => !Command.isForbidden c) = true := by
    cases op <;> simp only [subcommand] <;> decide
  refine List.count_eq_zero.2 fun hm => Text.ne_of_test hd ?_ rfl
  simpa using List.all_eq_true.mp hnone d hm

/-- **The frame of an operation.** Its line holds no line feed and no carriage return, and NUL as
often as the prefix does. Its last byte ends the line, and no other byte does but the NULs of the
prefix where NUL ends lines. -/
theorem Operation.count_terminator_frame {op : Operation} {seq : Option UInt32}
    {commandPrefix : String} {c : EncodedCommand} (h : op.encode seq commandPrefix = .ok c)
    (framing : Framing) :
    c.wire.toList.count '\n' = 0 ∧ c.wire.toList.count '\r' = 0 ∧
    c.wire.toList.count '\x00' = commandPrefix.toList.count '\x00' ∧
    (c.frame framing).getLast? = some framing.terminator ∧
    (c.frame framing).count framing.terminator =
      1 + if framing = .nul then commandPrefix.toList.count '\x00' else 0 := by
  have hlf : c.wire.toList.count '\n' = 0 := count_wire_blank (by decide) (by decide) h
  have hcr : c.wire.toList.count '\r' = 0 := count_wire_blank (by decide) (by decide) h
  have hnul : c.wire.toList.count '\x00' = commandPrefix.toList.count '\x00' := by
    rw [count_wire (by decide) h, op.count_subcommand (by decide), Nat.add_zero]
  refine ⟨hlf, hcr, hnul, List.getLast?_concat, ?_⟩
  rw [count_frame, Nat.add_comm]
  cases framing with
  | nul => exact congrArg (1 + ·) hnul
  | newline => exact congrArg (1 + ·) hlf

/-- Locking a storage with command number 3. -/
theorem Operation.count_terminator_frame_lock :
    (lockStorage "/x").encode (some 3) "efs-server" =
      .ok ⟨"3 efs-server lock /x", "3 efs-server lock /x"⟩ ∧
    (EncodedCommand.frame ⟨"3 efs-server lock /x", "3 efs-server lock /x"⟩ .nul).count 0 = 1 :=
  have h : (lockStorage "/x").encode (some 3) "efs-server" =
      .ok ⟨"3 efs-server lock /x", "3 efs-server lock /x"⟩ := by decide +kernel
  ⟨h, (count_terminator_frame h .nul).2.2.2.2⟩

/-- A prefix with NUL in it passes the checks on the settings and on command words, and the frame
of one command is two lines. -/
theorem Operation.prefix_nul_ends_twice :
    AppConfig.validate { daemon := { commandPrefix := "a\x00b" } } = .ok () ∧
    (lockStorage "/x").encode (some 3) "a\x00b" = .ok ⟨"3 a\x00b lock /x", "3 a\x00b lock /x"⟩ ∧
    '\x00' ∈ "3 a\x00b lock /x".toList ∧
    (EncodedCommand.frame ⟨"3 a\x00b lock /x", "3 a\x00b lock /x"⟩ .nul).count
      Framing.nul.terminator = 2 := by
  refine ⟨?_, ?_, ?_, ?_⟩ <;> decide +kernel

end EfsControl
