/-
# Commands arrive as they were sent

The daemon splits the bytes at the ones that end lines, takes each line for
text and the text for tokens. A frame is one line, the line is the text that
was written, and its tokens are what the command says. So whatever pieces the
frames of some commands come in, the daemon has just these commands.

Key definitions: `CommandRequest`, `SentCommand`, `SentCommand.received`.
Key theorems: `CommandReader.feedAll_eq`, `parseCommand_wire`,
`CommandReader.feedAll_frames`.
-/
import EfsControl.Daemon.Command
import EfsControl.Proofs.Command.Frame

namespace EfsControl

/-! ### Pieces -/

/-- What is left after the complete lines holds no complete line. -/
theorem splitLines_rest (t : UInt8) (bs : List UInt8) :
    splitLines t (splitLines t bs).2 = ([], (splitLines t bs).2) := by
  have h := splitLines_append t bs []
  rw [List.append_nil, List.append_nil] at h
  have hlines : (splitLines t (splitLines t bs).2).1 = [] :=
    List.append_right_eq_self.1 (congrArg Prod.fst h).symm
  exact Prod.ext hlines (congrArg Prod.snd h).symm

namespace CommandReader

theorem feed_append (framing : Framing) (numbered : Bool) (r : CommandReader) (as bs : List UInt8) :
    feed framing numbered r (as ++ bs) =
      ((feed framing numbered (feed framing numbered r as).1 bs).1,
        (feed framing numbered r as).2 ++
          (feed framing numbered (feed framing numbered r as).1 bs).2) := by
  simp only [feed]
  rw [← List.append_assoc, splitLines_append, List.filterMap_append]

/-- A reader that keeps no complete line is given the same commands by all pieces at once. -/
theorem feedAll_eq (framing : Framing) (numbered : Bool) {r : CommandReader}
    (h : splitLines framing.terminator r.partialLine = ([], r.partialLine))
    (pieces : List (List UInt8)) :
    feedAll framing numbered r pieces = feed framing numbered r pieces.flatten := by
  induction pieces generalizing r with
  | nil => simp [feedAll, feed, h]
  | cons piece pieces ih =>
    have hrest := ih (r := (r.feed framing numbered piece).1) (splitLines_rest _ _)
    rw [List.flatten_cons, feed_append, ← hrest]
    rfl

end CommandReader

/-! ### One command -/

/-- A command before it is written. -/
structure CommandRequest where
  seq : Option UInt32
  commandPrefix : String
  subcommand : String
  args : List Arg

/-- The command as text. -/
def CommandRequest.encode (r : CommandRequest) : Except EncodeError EncodedCommand :=
  EfsControl.encode r.seq r.commandPrefix r.subcommand r.args

/-- A command that could be written, with what was written. -/
structure SentCommand extends CommandRequest where
  line : EncodedCommand
  encode_eq : toCommandRequest.encode = .ok line

namespace SentCommand

/-- The command as the daemon should have it: each argument as its text, integers in decimal. -/
def received (s : SentCommand) : ReceivedCommand :=
  ⟨s.seq, s.commandPrefix, s.subcommand, s.args.map fun a => String.ofList a.chars, s.line.wire⟩

/-- Whether no word of the command holds NUL. -/
def WordsWithoutNul (s : SentCommand) : Prop :=
  '\x00' ∉ s.commandPrefix.toList ∧ '\x00' ∉ s.subcommand.toList

/-- A daemon reads the line of a command as the command, if it expects a number where one is. -/
theorem parseCommand_wire (s : SentCommand) :
    parseCommand s.seq.isSome s.line.wire = some s.received := by
  rw [parseCommand, tokenize_wire s.encode_eq]
  cases hseq : s.seq with
  | none => simp [Command.tokens, commandOfTokens?, received, hseq, Function.comp_def]
  | some n =>
    simp [Command.tokens, commandOfTokens?, received, hseq, Function.comp_def,
      Text.readUInt32?_digits]

theorem readCommand_wire (s : SentCommand) :
    readCommand s.seq.isSome (Utf8.ofString s.line.wire) = some s.received := by
  rw [readCommand, Utf8.ofString, Utf8.decodeLossy_encode, String.ofList_toList,
    s.parseCommand_wire]

/-- The line of a command without NUL in its words holds no byte that ends a line. -/
theorem terminator_not_mem {s : SentCommand} (h : s.WordsWithoutNul) (framing : Framing) :
    framing.terminator ∉ Utf8.ofString s.line.wire := by
  rw [← List.count_eq_zero, framing.count_terminator]
  cases framing with
  | nul =>
    have hwire : s.line.wire.toList.count '\x00' =
        s.commandPrefix.toList.count '\x00' + s.subcommand.toList.count '\x00' :=
      count_wire (by decide) s.encode_eq
    exact hwire.trans (by rw [List.count_eq_zero_of_not_mem h.1, List.count_eq_zero_of_not_mem h.2])
  | newline => exact count_wire_blank (by decide) (by decide) s.encode_eq

end SentCommand

/-! ### A stream of commands -/

/-- **Commands arrive intact.** The frames of commands whose words hold no NUL, in pieces of any
size, give the daemon these commands in order, with their numbers, words and arguments, and leave
nothing over. -/
theorem CommandReader.feedAll_frames {framing : Framing} {numbered : Bool}
    {commands : List SentCommand} (hwords : ∀ s ∈ commands, s.WordsWithoutNul)
    (hnumbered : ∀ s ∈ commands, s.seq.isSome = numbered) {pieces : List (List UInt8)}
    (hpieces : pieces.flatten = commands.flatMap fun s => s.line.frame framing) :
    feedAll framing numbered {} pieces = ({}, commands.map SentCommand.received) := by
  have hlines : ∀ line ∈ commands.map fun s => Utf8.ofString s.line.wire,
      framing.terminator ∉ line := by
    intro line hline
    obtain ⟨s, hs, rfl⟩ := List.mem_map.1 hline
    exact SentCommand.terminator_not_mem (hwords s hs) framing
  have hread : (commands.map fun s => Utf8.ofString s.line.wire).filterMap (readCommand numbered) =
      commands.map SentCommand.received := by
    rw [List.filterMap_map, ← List.filterMap_eq_map]
    refine List.filterMap_congr fun s hs => ?_
    rw [Function.comp_apply, ← hnumbered s hs]
    exact s.readCommand_wire
  have hbytes : pieces.flatten =
      (commands.map fun s => Utf8.ofString s.line.wire).flatMap (· ++ [framing.terminator]) := by
    rw [hpieces, List.flatMap_map]
    rfl
  rw [feedAll_eq framing numbered rfl]
  simp only [feed, hbytes, List.nil_append, splitLines_lines hlines, hread]

/-- Two numbered commands, the second with a quoted argument, a letter of two bytes and a secret,
in three pieces of which the second begins inside that letter. -/
theorem CommandReader.feedAll_frames_pieces :
    feedAll .nul true {}
        [(Utf8.ofString "1 efs stat /x" ++ [0] ++ Utf8.ofString "2 efs create \"/a b").concat 0xC3,
          0xA9 :: Utf8.ofString "\" p\\\"", [0]] =
      ({}, [⟨some 1, "efs", "stat", ["/x"], "1 efs stat /x"⟩,
        ⟨some 2, "efs", "create", ["/a bé", "p\""], "2 efs create \"/a bé\" p\\\""⟩]) := by
  have hwords : ∀ s ∈ ([
      ⟨⟨some 1, "efs", "stat", [.text "/x"]⟩, ⟨"1 efs stat /x", "1 efs stat /x"⟩,
        by decide +kernel⟩,
      ⟨⟨some 2, "efs", "create", [.text "/a bé", .secret ⟨"p\""⟩]⟩,
        ⟨"2 efs create \"/a bé\" p\\\"", "2 efs create \"/a bé\" [REDACTED]"⟩,
        by decide +kernel⟩] : List SentCommand), s.WordsWithoutNul := by
    simp [SentCommand.WordsWithoutNul]
  exact feedAll_frames hwords (by simp) (by decide +kernel)

end EfsControl
