/-
# Which lines are understood

A line is understood if its first word is three digits whose number is the code
of an event or of a reply, and, for a reply to a numbered command, its second
word says a number of 32 bits. A plus sign may stand in front of the second word
but not of the first, where it leaves room for two digits only, and those say no
code. Words end at single spaces, so two spaces in a row leave an empty word,
which says nothing.

A line that is not understood fails at the first of three questions: does the
first word say a number at all, is it a code, and does the second word say a
number. The first word is measured in bytes; a word that says a number has one
byte for each character.

Key definitions: `Line.IsCode`, `Line.IsReplyCode`, `Line.IsEventCode`,
`Line.Accepted`, `Line.Refused`.
Key theorems: `Line.readCode?_eq_some_iff`, `Line.isCode_iff`,
`parseLine_eq_ok_iff`, `parseLine_eq_error_iff`, `parseLine_language`.
-/
import EfsControl.Proofs.Reply.Written
import EfsControl.Text.Utf8

namespace EfsControl

/-! ### Numbers -/

namespace Text

variable {word : List Char} {n : Nat}

theorem length_encode_digit {c : Char} (h : c.isDigit = true) :
    (String.utf8EncodeChar c).length = 1 := by
  simp only [Char.isDigit, Bool.and_eq_true, decide_eq_true_eq] at h
  rw [String.length_utf8EncodeChar, Char.utf8Size_eq_one_iff]
  exact UInt32.le_trans h.2 (by decide)

/-- A word for a number has one byte for each character. -/
theorem Says.length_encode (h : Says word n) : (Utf8.encode word).length = word.length := by
  have hall : ∀ c ∈ word, (String.utf8EncodeChar c).length = 1 := by
    obtain ⟨ds, hword, -, hdigits, -⟩ := h
    rcases hword with rfl | rfl
    · exact fun c hc => length_encode_digit (hdigits c hc)
    · intro c hc
      rcases List.mem_cons.mp hc with rfl | hc
      · decide
      · exact length_encode_digit (hdigits c hc)
  rw [Utf8.encode, List.length_flatMap, List.map_congr_left hall]
  simp

theorem readUInt32?_eq_some_iff {number : UInt32} :
    readUInt32? word = some number ↔
      ∃ n, Says word n ∧ n ≤ 2 ^ 32 - 1 ∧ number = UInt32.ofNat n := by
  have hsize : UInt32.size - 1 = 2 ^ 32 - 1 := rfl
  rw [readUInt32?, hsize, Option.map_eq_some_iff]
  constructor
  · rintro ⟨n, hread, rfl⟩
    obtain ⟨hsay, hmax⟩ := readUpTo?_eq_some_iff.mp hread
    exact ⟨n, hsay, hmax, rfl⟩
  · rintro ⟨n, hsay, hmax, rfl⟩
    exact ⟨n, readUpTo?_eq_some_iff.mpr ⟨hsay, hmax⟩, rfl⟩

theorem readUInt32?_eq_none_iff :
    readUInt32? word = none ↔ ¬ ∃ n, Says word n ∧ n ≤ 2 ^ 32 - 1 := by
  rw [Option.eq_none_iff_forall_ne_some]
  constructor
  · rintro h ⟨n, hsay, hmax⟩
    exact h _ (readUInt32?_eq_some_iff.mpr ⟨n, hsay, hmax, rfl⟩)
  · intro h number hread
    obtain ⟨n, hsay, hmax, -⟩ := readUInt32?_eq_some_iff.mp hread
    exact h ⟨n, hsay, hmax⟩

end Text

/-! ### Codes -/

namespace Line

variable {word : List Char} {code : Nat}

/-- A word of three digits, and the number that they say. -/
structure IsCode (word : List Char) (code : Nat) : Prop where
  length : word.length = 3
  digits : ∀ c ∈ word, c.isDigit = true
  value : Nat.ofDigitChars 10 word 0 = code

/-- The codes of replies to commands. -/
def IsReplyCode (code : Nat) : Prop := 100 ≤ code ∧ code ≤ 299 ∨ 400 ≤ code ∧ code ≤ 599

/-- The codes of events. -/
def IsEventCode (code : Nat) : Prop := 600 ≤ code ∧ code ≤ 699

theorem readCode?_eq_some_iff :
    readCode? word = some code ↔ word.length = 3 ∧ Text.Says word code ∧ code ≤ 2 ^ 16 - 1 := by
  have hsize : UInt16.size - 1 = 2 ^ 16 - 1 := rfl
  unfold readCode?
  rw [hsize]
  split
  · rename_i h
    rw [Text.readUpTo?_eq_some_iff]
    exact ⟨fun hread => ⟨h, hread⟩, fun hread => hread.2⟩
  · rename_i h
    exact ⟨nofun, fun hread => absurd hread.1 h⟩

/-- No code is read where the word is not three bytes that say a number of 16 bits. -/
theorem readCode?_eq_none_iff :
    readCode? word = none ↔
      ¬ ((Utf8.encode word).length = 3 ∧ ∃ n, Text.Says word n ∧ n ≤ 2 ^ 16 - 1) := by
  rw [Option.eq_none_iff_forall_ne_some]
  constructor
  · rintro h ⟨hbytes, n, hsay, hmax⟩
    exact h n (readCode?_eq_some_iff.mpr ⟨hsay.length_encode ▸ hbytes, hsay, hmax⟩)
  · intro h n hread
    obtain ⟨hlength, hsay, hmax⟩ := readCode?_eq_some_iff.mp hread
    exact h ⟨hsay.length_encode.trans hlength, n, hsay, hmax⟩

/-- From 100 on a code is three digits: a plus sign would leave room for two, which say less. -/
theorem isCode_iff (h : 100 ≤ code) : readCode? word = some code ↔ IsCode word code := by
  rw [readCode?_eq_some_iff]
  constructor
  · rintro ⟨hlength, ⟨ds, hword, -, hdigits, hvalue⟩, -⟩
    rcases hword with rfl | rfl
    · exact ⟨hlength, hdigits, hvalue⟩
    · have hlt := Text.ofDigitChars_lt hdigits
      have htwo : ds.length = 2 := by simpa using hlength
      rw [hvalue, htwo] at hlt
      omega
  · rintro ⟨hlength, hdigits, hvalue⟩
    have hlt := Text.ofDigitChars_lt hdigits
    rw [hvalue, hlength] at hlt
    have hne : word ≠ [] := List.ne_nil_of_length_eq_add_one hlength
    exact ⟨hlength, ⟨word, .inl rfl, hne, hdigits, hvalue⟩, by omega⟩

end Line

namespace ResponseClass

variable {code : Nat}

theorem ofCode?_eq_none_iff :
    ofCode? code = none ↔ ¬ (Line.IsReplyCode code ∨ Line.IsEventCode code) := by
  unfold ofCode? Line.IsReplyCode Line.IsEventCode
  split <;> simp only [reduceCtorEq, true_iff, false_iff, not_not, imp_false] at * <;> omega

theorem ofCode?_eq_unsolicited_iff :
    ofCode? code = some .unsolicited ↔ Line.IsEventCode code := by
  unfold ofCode? Line.IsEventCode
  split <;> simp only [reduceCtorEq, Option.some.injEq, true_iff, false_iff, imp_false] at * <;>
    omega

/-- The other classes answer commands. -/
theorem isReplyCode_iff :
    (∃ c, ofCode? code = some c ∧ c ≠ .unsolicited) ↔ Line.IsReplyCode code := by
  refine ⟨?_, ofCode?_of_reply⟩
  rintro ⟨c, hc, hu⟩
  have hnone : ofCode? code ≠ none := by simp [hc]
  rw [ne_eq, ofCode?_eq_none_iff, not_not] at hnone
  refine hnone.resolve_right fun hevent => hu ?_
  rw [← ofCode?_eq_unsolicited_iff, hc] at hevent
  exact Option.some.inj hevent

end ResponseClass

/-! ### Lines -/

namespace Line

/-- The lines that are understood, and what they say. -/
inductive Accepted (raw : String) : Bool → Line → Prop
  /-- All that follows the code of an event is its message, whether commands are numbered or not. -/
  | event {numbered : Bool} {word rest : List Char} {code : Nat} (hcut : Cut raw.toList word rest)
      (hcode : IsCode word code) (hevent : IsEventCode code) :
      Accepted raw numbered (.event ⟨code, String.ofList rest, raw⟩)
  | plain {word rest : List Char} {code : Nat} (hcut : Cut raw.toList word rest)
      (hcode : IsCode word code) (hreply : IsReplyCode code) :
      Accepted raw false (.reply ⟨code, none, String.ofList rest, []⟩)
  | numbered {word rest number message : List Char} {code n : Nat}
      (hcut : Cut raw.toList word rest) (hcode : IsCode word code) (hreply : IsReplyCode code)
      (hcut' : Cut rest number message) (hnumber : Text.Says number n) (hmax : n ≤ 2 ^ 32 - 1) :
      Accepted raw true (.reply ⟨code, some (UInt32.ofNat n), String.ofList message, []⟩)

/-- The lines that are not understood, and why. -/
inductive Refused (raw : String) : Bool → LineError → Prop
  /-- The first word is not three bytes that say a number of 16 bits. -/
  | code {numbered : Bool} {word rest : List Char} (hcut : Cut raw.toList word rest)
      (h : ¬ ((Utf8.encode word).length = 3 ∧ ∃ n, Text.Says word n ∧ n ≤ 2 ^ 16 - 1)) :
      Refused raw numbered (.invalidCode raw)
  /-- It says a number that is no code. -/
  | unknown {numbered : Bool} {word rest : List Char} {code : Nat} (hcut : Cut raw.toList word rest)
      (hbytes : (Utf8.encode word).length = 3) (hword : Text.Says word code)
      (hmax : code ≤ 2 ^ 16 - 1) (h : ¬ (IsReplyCode code ∨ IsEventCode code)) :
      Refused raw numbered (.unknownClass code)
  /-- The second word of a reply to a numbered command says no number of 32 bits. -/
  | number {word rest number message : List Char} {code : Nat} (hcut : Cut raw.toList word rest)
      (hcode : IsCode word code) (hreply : IsReplyCode code) (hcut' : Cut rest number message)
      (h : ¬ ∃ n, Text.Says number n ∧ n ≤ 2 ^ 32 - 1) :
      Refused raw true (.invalidSequence raw)

theorem IsReplyCode.le {code : Nat} (h : IsReplyCode code) : 100 ≤ code := by
  unfold IsReplyCode at h
  omega

theorem IsEventCode.le {code : Nat} (h : IsEventCode code) : 100 ≤ code := by
  unfold IsEventCode at h
  omega

end Line

open Line

variable {raw : String} {numbered : Bool}

theorem parseLine_eq_ok_iff {l : Line} :
    parseLine raw numbered = .ok l ↔ Accepted raw numbered l := by
  rw [parseLine_iff]
  constructor
  · intro h
    cases h with
    | event hword hcode hclass =>
      have hevent := ResponseClass.ofCode?_eq_unsolicited_iff.mp hclass
      exact .event (splitWord_eq_iff.mp hword) ((isCode_iff hevent.le).mp hcode) hevent
    | plain hword hcode hclass hc =>
      have hreply := ResponseClass.isReplyCode_iff.mp ⟨_, hclass, hc⟩
      exact .plain (splitWord_eq_iff.mp hword) ((isCode_iff hreply.le).mp hcode) hreply
    | numbered hword hcode hclass hc hnumber hseq =>
      have hreply := ResponseClass.isReplyCode_iff.mp ⟨_, hclass, hc⟩
      obtain ⟨n, hsay, hmax, rfl⟩ := Text.readUInt32?_eq_some_iff.mp hseq
      exact .numbered (splitWord_eq_iff.mp hword) ((isCode_iff hreply.le).mp hcode) hreply
        (splitWord_eq_iff.mp hnumber) hsay hmax
  · intro h
    cases h with
    | event hcut hcode hevent =>
      exact .event (splitWord_eq_iff.mpr hcut) ((isCode_iff hevent.le).mpr hcode)
        (ResponseClass.ofCode?_eq_unsolicited_iff.mpr hevent)
    | plain hcut hcode hreply =>
      obtain ⟨c, hclass, hc⟩ := ResponseClass.isReplyCode_iff.mpr hreply
      exact .plain (splitWord_eq_iff.mpr hcut) ((isCode_iff hreply.le).mpr hcode) hclass hc
    | numbered hcut hcode hreply hcut' hnumber hmax =>
      obtain ⟨c, hclass, hc⟩ := ResponseClass.isReplyCode_iff.mpr hreply
      exact .numbered (splitWord_eq_iff.mpr hcut) ((isCode_iff hreply.le).mpr hcode) hclass hc
        (splitWord_eq_iff.mpr hcut') (Text.readUInt32?_eq_some_iff.mpr ⟨_, hnumber, hmax, rfl⟩)

theorem parseLine_eq_error_iff {e : LineError} :
    parseLine raw numbered = .error e ↔ Refused raw numbered e := by
  constructor
  · intro h
    unfold parseLine at h
    simp only at h
    split at h
    · rename_i hnone
      cases h
      exact .code (splitWord_eq_iff.mp rfl) (readCode?_eq_none_iff.mp hnone)
    rename_i code hcode
    split at h
    · rename_i hclass
      cases h
      obtain ⟨hlength, hsay, hmax⟩ := readCode?_eq_some_iff.mp hcode
      exact .unknown (splitWord_eq_iff.mp rfl) (hsay.length_encode.trans hlength) hsay hmax
        (ResponseClass.ofCode?_eq_none_iff.mp hclass)
    · cases h
    · rename_i c hu hclass
      have hreply := ResponseClass.isReplyCode_iff.mp ⟨c, hclass, hu⟩
      split at h
      · rename_i hn
        subst hn
        split at h
        · rename_i hnumber
          cases h
          exact .number (splitWord_eq_iff.mp rfl) ((isCode_iff hreply.le).mp hcode) hreply
            (splitWord_eq_iff.mp rfl) (Text.readUInt32?_eq_none_iff.mp hnumber)
        · cases h
      · cases h
  · intro h
    cases h with
    | code hcut hno =>
      simp only [parseLine, splitWord_eq_iff.mpr hcut, readCode?_eq_none_iff.mpr hno]
    | unknown hcut hbytes hword hmax hno =>
      have hcode := readCode?_eq_some_iff.mpr ⟨hword.length_encode ▸ hbytes, hword, hmax⟩
      simp only [parseLine, splitWord_eq_iff.mpr hcut, hcode,
        ResponseClass.ofCode?_eq_none_iff.mpr hno]
    | number hcut hcode hreply hcut' hno =>
      obtain ⟨c, hclass, hc⟩ := ResponseClass.isReplyCode_iff.mpr hreply
      cases c with
      | unsolicited => exact absurd rfl hc
      | _ =>
        simp only [parseLine, splitWord_eq_iff.mpr hcut, (isCode_iff hreply.le).mpr hcode, hclass,
          splitWord_eq_iff.mpr hcut', Text.readUInt32?_eq_none_iff.mpr hno, if_true]

/-- **Exactly which lines are understood.** What a line says is given by its first words, and so is
why it says nothing. So a reply that was read has a class that answers commands and nothing kept
from earlier lines, and every reply of such a class is read from the line that is written for it. -/
theorem parseLine_language (raw : String) (numbered : Bool) :
    (∀ l, parseLine raw numbered = .ok l ↔ Accepted raw numbered l) ∧
    (∀ e, parseLine raw numbered = .error e ↔ Refused raw numbered e) ∧
    (∀ r, parseLine raw numbered = .ok (.reply r) → r.continuations = [] ∧
      (r.class? = some .continuing ∨ r.class? = some .ok ∨ r.class? = some .failed)) ∧
    ∀ (code : Nat) (seq : Option UInt32) (message : String), IsReplyCode code →
      parseLine (replyLine code seq message) seq.isSome =
        .ok (.reply ⟨code, seq, message, []⟩) := by
  refine ⟨fun l => parseLine_eq_ok_iff, fun e => parseLine_eq_error_iff, fun r h => ?_,
    fun code seq message hcode => ?_⟩
  · obtain ⟨hnil, -, c, hclass, hc⟩ := parseLine_reply h
    refine ⟨hnil, ?_⟩
    rw [hclass]
    cases c with
    | continuing => exact .inl rfl
    | ok => exact .inr (.inl rfl)
    | failed => exact .inr (.inr rfl)
    | unsolicited => exact absurd rfl hc
  · exact Reply.parseLine_line (r := ⟨code, seq, message, []⟩) hcode rfl

/-- A plus sign and zeros in front of a number, with an empty word behind it; a plus sign in a first
word; a first word of three bytes that is no number; a number of 33 bits; and a reply without a
message. -/
theorem parseLine_language_signs :
    Accepted "200 +0007  x" true (.reply ⟨200, some 7, " x", []⟩) ∧
    Refused "+99 1 x" true (.unknownClass 99) ∧
    Refused "€ 1 x" true (.invalidCode "€ 1 x") ∧
    Refused "200 4294967296 x" true (.invalidSequence "200 4294967296 x") ∧
    IsReplyCode 405 ∧
    parseLine (replyLine 405 (some 4294967295) "") true =
      .ok (.reply ⟨405, some 4294967295, "", []⟩) := by
  have hcode : IsReplyCode 405 := .inr (by decide)
  exact ⟨((parseLine_language _ _).1 _).mp (by decide +kernel),
    ((parseLine_language _ _).2.1 _).mp (by decide +kernel),
    ((parseLine_language _ _).2.1 _).mp (by decide +kernel),
    ((parseLine_language _ _).2.1 _).mp (by decide +kernel), hcode,
    (parseLine_language "" true).2.2.2 405 (some 4294967295) "" hcode⟩

end EfsControl
