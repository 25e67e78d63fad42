/-
# What a line that is a reply says

A line that is read begins with its code; the class of the code says whether it
is an event or a reply, and with it what the rest is. A reply has a code
between 100 and 299 or between 400 and 599, and a number exactly when commands
are numbered. An event has a code in the six hundreds; its message is all that
follows the code.

Key definitions: `Line.Cut`, `Line.Reads`.
Key theorems: `Line.splitWord_eq_iff`, `parseLine_iff`, `parseLine_reply`,
`parseLine_event`, `Reply.code_of_final`.
-/
import EfsControl.Proofs.Text.Decimal
import EfsControl.Reply
import Mathlib.Data.List.TakeWhile

namespace EfsControl

/-! ### Words -/

namespace Line

/-- The word in front of the first space of a text and what follows that space, or a text of one
word. -/
inductive Cut : List Char → List Char → List Char → Prop
  | whole {word : List Char} (h : ' ' ∉ word) : Cut word word []
  | space {word rest : List Char} (h : ' ' ∉ word) : Cut (word ++ ' ' :: rest) word rest

/-- A text is split at its first space. -/
theorem splitWord_eq_iff {cs word rest : List Char} :
    splitWord cs = (word, rest) ↔ Cut cs word rest := by
  constructor
  · intro h
    obtain ⟨rfl, rfl⟩ := Prod.mk.inj h
    have hspace : ' ' ∉ cs.takeWhile (· != ' ') := fun hm => by
      simpa using List.all_eq_true.mp List.all_takeWhile _ hm
    have hcut := List.takeWhile_append_dropWhile (p := (· != ' ')) (l := cs)
    cases hd : cs.dropWhile (· != ' ') with
    | nil =>
      rw [hd, List.append_nil] at hcut
      rw [hcut] at hspace ⊢
      exact .whole hspace
    | cons c ds =>
      have hc : c = ' ' := by
        have hhead := List.head?_dropWhile_not (· != ' ') cs
        rw [hd] at hhead
        simpa using hhead
      subst hc
      rw [hd] at hcut
      have hcut' : Cut (cs.takeWhile (· != ' ') ++ ' ' :: ds) _ ds := .space hspace
      rwa [hcut] at hcut'
  · have hword {w : List Char} (h : ' ' ∉ w) : ∀ c ∈ w, (c != ' ') = true := fun c hc =>
      bne_iff_ne.mpr (ne_of_mem_of_not_mem hc h)
    intro h
    cases h with
    | whole h =>
      rw [splitWord, List.takeWhile_eq_self_iff.mpr (hword h),
        List.dropWhile_eq_nil_iff.mpr (hword h)]
      rfl
    | space h =>
      have hspace : ∀ c ∈ (' ' :: rest).head?, (c != ' ') = false := by simp
      rw [splitWord, Text.takeWhile_run (hword h) hspace, Text.dropWhile_run (hword h) hspace]
      rfl

end Line

/-! ### Codes -/

/-- The code of a class that says that a command is done. -/
theorem ResponseClass.code_of_ok {code : Nat} (h : ofCode? code = some .ok) :
    200 ≤ code ∧ code ≤ 299 := by
  unfold ofCode? at h
  split at h <;> simp only [reduceCtorEq, Option.some.injEq] at h
  rename_i hc
  omega

/-- The code of a class that says that a command failed. -/
theorem ResponseClass.code_of_failed {code : Nat} (h : ofCode? code = some .failed) :
    400 ≤ code ∧ code ≤ 599 := by
  unfold ofCode? at h
  split at h <;> simp only [reduceCtorEq, Option.some.injEq] at h <;> omega

/-- The code of a class that no command asks for. -/
theorem ResponseClass.code_of_unsolicited {code : Nat} (h : ofCode? code = some .unsolicited) :
    600 ≤ code ∧ code ≤ 699 := by
  unfold ofCode? at h
  split at h <;> simp only [reduceCtorEq, Option.some.injEq] at h
  rename_i hc
  omega

/-! ### Lines -/

/-- How a line is read: its first word is the code, and what the rest is depends on the class of the
code and on whether commands are numbered. -/
inductive Line.Reads (raw : String) : Bool → Line → Prop
  /-- An event has no number, whether commands are numbered or not. -/
  | event {numbered : Bool} {word rest : List Char} {code : Nat}
      (hword : Line.splitWord raw.toList = (word, rest)) (hcode : Line.readCode? word = some code)
      (hclass : ResponseClass.ofCode? code = some .unsolicited) :
      Reads raw numbered (.event ⟨code, String.ofList rest, raw⟩)
  | plain {word rest : List Char} {code : Nat} {c : ResponseClass}
      (hword : Line.splitWord raw.toList = (word, rest)) (hcode : Line.readCode? word = some code)
      (hclass : ResponseClass.ofCode? code = some c) (hc : c ≠ .unsolicited) :
      Reads raw false (.reply ⟨code, none, String.ofList rest, []⟩)
  | numbered {word rest number message : List Char} {code : Nat} {c : ResponseClass} {seq : UInt32}
      (hword : Line.splitWord raw.toList = (word, rest)) (hcode : Line.readCode? word = some code)
      (hclass : ResponseClass.ofCode? code = some c) (hc : c ≠ .unsolicited)
      (hnumber : Line.splitWord rest = (number, message))
      (hseq : Text.readUInt32? number = some seq) :
      Reads raw true (.reply ⟨code, some seq, String.ofList message, []⟩)

theorem parseLine_iff {raw : String} {numbered : Bool} {l : Line} :
    parseLine raw numbered = .ok l ↔ Line.Reads raw numbered l := by
  constructor
  · intro h
    unfold parseLine at h
    simp only at h
    split at h
    · cases h
    rename_i code hcode
    split at h
    · cases h
    · rename_i hu
      cases h
      exact .event rfl hcode hu
    · rename_i c hu hc
      split at h
      · rename_i hn
        subst hn
        split at h
        · cases h
        · rename_i seq hseq
          cases h
          exact .numbered rfl hcode hc hu rfl hseq
      · rename_i hn
        rw [Bool.not_eq_true] at hn
        subst hn
        cases h
        exact .plain rfl hcode hc hu
  · intro h
    cases h with
    | event hword hcode hclass => simp only [parseLine, hword, hcode, hclass]
    | @plain word rest code c hword hcode hclass hc =>
      cases c with
      | unsolicited => exact absurd rfl hc
      | _ => simp only [parseLine, hword, hcode, hclass, if_false, Bool.false_eq_true]
    | @numbered word rest number message code c seq hword hcode hclass hc hnumber hseq =>
      cases c with
      | unsolicited => exact absurd rfl hc
      | _ => simp only [parseLine, hword, hcode, hclass, hnumber, hseq, if_true]

/-- An event has the code of its line, all that follows it as its message, and the whole line. -/
theorem parseLine_event {raw : String} {numbered : Bool} {e : Event}
    (h : parseLine raw numbered = .ok (.event e)) :
    e.raw = raw ∧ 600 ≤ e.code ∧ e.code ≤ 699 ∧ ∃ word, Line.readCode? word = some e.code ∧
      Line.splitWord e.raw.toList = (word, e.message.toList) := by
  cases parseLine_iff.mp h with
  | event hword hcode hclass =>
    obtain ⟨hlo, hhi⟩ := ResponseClass.code_of_unsolicited hclass
    refine ⟨rfl, hlo, hhi, _, hcode, ?_⟩
    rw [String.toList_ofList]
    exact hword

/-- A reply is of a class that answers commands, its lines begin with it, and it has a number
exactly when commands are numbered. -/
theorem parseLine_reply {raw : String} {numbered : Bool} {r : Reply}
    (h : parseLine raw numbered = .ok (.reply r)) :
    r.continuations = [] ∧ r.seq.isSome = numbered ∧
      ∃ c, r.class? = some c ∧ c ≠ .unsolicited := by
  cases parseLine_iff.mp h with
  | plain hword hcode hclass hc => exact ⟨rfl, rfl, _, hclass, hc⟩
  | numbered hword hcode hclass hc hnumber hseq => exact ⟨rfl, rfl, _, hclass, hc⟩

namespace Reply

variable {raw : String} {numbered : Bool} {r : Reply}

theorem seq_of_unnumbered (h : parseLine raw false = .ok (.reply r)) : r.seq = none := by
  simpa using (parseLine_reply h).2.1

theorem seq_of_numbered (h : parseLine raw true = .ok (.reply r)) : ∃ n, r.seq = some n :=
  Option.isSome_iff_exists.mp (parseLine_reply h).2.1

/-- A final reply says either that the command is done or that it failed. -/
theorem code_of_final (h : parseLine raw numbered = .ok (.reply r)) (hf : r.isFinal = true) :
    (r.isFailure = false → 200 ≤ r.code ∧ r.code ≤ 299) ∧
      (r.isFailure = true → 400 ≤ r.code ∧ r.code ≤ 599) := by
  obtain ⟨-, -, c, hc, hu⟩ := parseLine_reply h
  have hfail : r.isFailure = (some c == some .failed) := by rw [isFailure, hc]
  have hfin : r.isFinal = (some c != some .continuing) := by rw [isFinal, hc]
  cases c with
  | continuing => simp [hf] at hfin
  | ok => exact ⟨fun _ => ResponseClass.code_of_ok hc, by simp [hfail]⟩
  | failed => exact ⟨by simp [hfail], fun _ => ResponseClass.code_of_failed hc⟩
  | unsolicited => exact absurd rfl hu

end Reply
end EfsControl
