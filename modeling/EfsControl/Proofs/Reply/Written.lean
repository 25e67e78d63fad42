/-
# A written reply is read as it was

A daemon writes a reply as its code, its number if commands are numbered, and
its message, and ends the line with one byte. The code has three digits and the
number digits alone, so the first spaces stand where the words end; the message
may hold anything but the byte that ends lines, also nothing, if it does not end
with line ends of its own.

Key definitions: `Reply.line`, `Reply.frame`, `Reply.Sendable`, `Reply.head`.
Key theorems: `Line.splitWord_digits`, `Line.readCode?_digits`,
`Reply.parseLine_line`, `Reply.Sendable.terminator_not_mem`.
-/
import EfsControl.Proofs.Command.Frame
import EfsControl.Proofs.Reply
import EfsControl.Proofs.Text.Decimal

namespace EfsControl

/-! ### Words -/

namespace Line

theorem splitWord_digits (n : Nat) (rest : List Char) :
    splitWord (Text.digits n ++ ' ' :: rest) = (Text.digits n, rest) :=
  splitWord_eq_iff.mpr (.space fun hm => by cases Text.isDigit_of_mem_digits hm)

/-- A code of three digits is read as it was written. -/
theorem readCode?_digits {code : Nat} (hlo : 100 ≤ code) (hhi : code ≤ 999) :
    readCode? (Text.digits code) = some code := by
  have hlength : (Text.digits code).length = 3 := by
    have hle : (Text.digits code).length ≤ 3 ↔ code < 10 ^ 3 :=
      Nat.length_toDigits_le_iff (by omega) (by omega)
    have hgt : (Text.digits code).length ≤ 2 ↔ code < 10 ^ 2 :=
      Nat.length_toDigits_le_iff (by omega) (by omega)
    omega
  have hmax : code ≤ UInt16.size - 1 := by
    have : UInt16.size = 65536 := rfl
    omega
  rw [readCode?, if_pos hlength, Text.readUpTo?, Text.dropPlus_digits, Text.readNat?_digits,
    Option.filter_some, if_pos (decide_eq_true hmax)]

end Line

/-- The codes that answer commands. -/
theorem ResponseClass.ofCode?_of_reply {code : Nat}
    (h : 100 ≤ code ∧ code ≤ 299 ∨ 400 ≤ code ∧ code ≤ 599) :
    ∃ c, ofCode? code = some c ∧ c ≠ .unsolicited := by
  have hhundreds : code / 100 = 1 ∨ code / 100 = 2 ∨ code / 100 = 4 ∨ code / 100 = 5 := by omega
  rcases hhundreds with h | h | h | h
  · exact ⟨.continuing, by rw [ofCode?, h]; rfl, nofun⟩
  · exact ⟨.ok, by rw [ofCode?, h]; rfl, nofun⟩
  · exact ⟨.failed, by rw [ofCode?, h]; rfl, nofun⟩
  · exact ⟨.failed, by rw [ofCode?, h]; rfl, nofun⟩

/-! ### Lines -/

namespace Reply

/-- The line of a reply as a daemon writes it, without the byte that ends it. -/
def line (r : Reply) : String := replyLine r.code r.seq r.message

/-- The bytes of the line, with the one that ends it. -/
def frame (framing : Framing) (r : Reply) : List UInt8 :=
  Utf8.ofString r.line ++ [framing.terminator]

/-- A reply whose line is one line and says all of it. -/
structure Sendable (framing : Framing) (numbered : Bool) (r : Reply) : Prop where
  code : 100 ≤ r.code ∧ r.code ≤ 299 ∨ 400 ≤ r.code ∧ r.code ≤ 599
  seq : r.seq.isSome = numbered
  message : framing.endChar ∉ r.message.toList
  lineEnd : ∀ c ∈ r.message.toList.getLast?, c ≠ '\r' ∧ c ≠ '\n'
  continuations : r.continuations = []

/-- The words in front of the message, each with a space behind it. -/
def head (r : Reply) : List Char :=
  Text.digits r.code ++ ' ' :: (r.seq.toList.flatMap fun n => Text.digits n.toNat ++ [' '])

theorem toList_line (r : Reply) : r.line.toList = r.head ++ r.message.toList := by
  obtain ⟨code, seq, message, continuations⟩ := r
  cases seq <;> simp [line, head, replyLine, Text.digits]

theorem line_ne_empty (r : Reply) : r.line ≠ "" := by
  intro h
  have hnil : r.head ++ r.message.toList = [] := by
    rw [← toList_line, h]
    rfl
  simp [head] at hnil

/-- The words hold no character but digits and spaces. -/
theorem not_mem_head {r : Reply} {c : Char} (hdigit : c.isDigit = false) (hspace : c ≠ ' ') :
    c ∉ r.head := by
  have hdigits (n : Nat) : c ∉ Text.digits n := fun hm =>
    Text.ne_of_test (Text.isDigit_of_mem_digits hm) hdigit rfl
  cases hseq : r.seq <;> simp [head, hseq, hdigits, hspace]

/-- The last character of a line is the last of the message, or a space. -/
theorem getLast?_line {r : Reply} {c : Char} (h : c ∈ r.line.toList.getLast?) :
    c = ' ' ∨ c ∈ r.message.toList.getLast? := by
  rw [toList_line, List.getLast?_append] at h
  cases hm : r.message.toList.getLast? with
  | some d =>
    rw [hm] at h
    exact .inr h
  | none =>
    rw [hm] at h
    obtain ⟨front, hfront⟩ : ∃ front, r.head = front ++ [' '] := by
      unfold head
      cases r.seq with
      | none => exact ⟨Text.digits r.code, rfl⟩
      | some n => exact ⟨Text.digits r.code ++ ' ' :: Text.digits n.toNat, by simp⟩
    rw [hfront, List.getLast?_concat] at h
    exact .inl (Option.some.inj h).symm

/-- A reply to a command is read from its line, whatever its message is. -/
theorem parseLine_line {r : Reply}
    (hcode : 100 ≤ r.code ∧ r.code ≤ 299 ∨ 400 ≤ r.code ∧ r.code ≤ 599)
    (hnil : r.continuations = []) : parseLine r.line r.seq.isSome = .ok (.reply r) := by
  obtain ⟨c, hclass, hc⟩ := ResponseClass.ofCode?_of_reply hcode
  have hread : Line.readCode? (Text.digits r.code) = some r.code :=
    Line.readCode?_digits (by omega) (by omega)
  obtain ⟨code, seq, message, continuations⟩ := r
  subst hnil
  rw [parseLine_iff]
  cases seq with
  | none =>
    have hword : Line.splitWord (line ⟨code, none, message, []⟩).toList =
        (Text.digits code, message.toList) := by
      rw [toList_line, ← Line.splitWord_digits code message.toList]
      simp [head]
    have hreads := Line.Reads.plain hword hread hclass hc
    rwa [String.ofList_toList] at hreads
  | some n =>
    have hword : Line.splitWord (line ⟨code, some n, message, []⟩).toList =
        (Text.digits code, Text.digits n.toNat ++ ' ' :: message.toList) := by
      rw [toList_line, ← Line.splitWord_digits code]
      simp [head]
    have hreads := Line.Reads.numbered hword hread hclass hc (Line.splitWord_digits n.toNat _)
      (Text.readUInt32?_digits n)
    rwa [String.ofList_toList] at hreads

namespace Sendable

variable {framing : Framing} {numbered : Bool} {r : Reply}

/-- The line is read as the reply. -/
theorem parseLine_line (h : r.Sendable framing numbered) :
    parseLine r.line numbered = .ok (.reply r) := by
  have hread := Reply.parseLine_line h.code h.continuations
  rwa [h.seq] at hread

/-- The line does not end with a line end of its own. -/
theorem dropLineEnd_line (h : r.Sendable framing numbered) :
    Text.dropLineEnd r.line.toList = r.line.toList := by
  refine Text.dropEndWhile_eq_self fun c hc => ?_
  rcases getLast?_line hc with rfl | hm
  · rfl
  · obtain ⟨hcr, hlf⟩ := h.lineEnd c hm
    simp [Text.isLineEnd, hcr, hlf]

/-- The byte that ends lines is not in the line. -/
theorem terminator_not_mem (h : r.Sendable framing numbered) :
    framing.terminator ∉ Utf8.ofString r.line := by
  have hhead : framing.endChar ∉ r.head := by
    cases framing
    · exact not_mem_head (by decide) (by decide)
    · exact not_mem_head (by decide) (by decide)
  rw [← List.count_eq_zero, framing.count_terminator, List.count_eq_zero, toList_line,
    List.mem_append, not_or]
  exact ⟨hhead, h.message⟩

end Sendable
end Reply
end EfsControl
