/-
# Numbers come back

A number may have a fraction and an exponent. Any number is read over up to
the character that ends it; a whole number that is not too large for a double
is read as what it is.

Key definitions: `Ends`, `IsNumber`.
Key theorems: `IsNumber.scan`, `isNumber_intDigits`, `readNumber_intDigits`,
`readInteger_intDigits`.
-/
import EfsControl.Json.Record
import EfsControl.Proofs.Text.Decimal
import Mathlib.Algebra.Group.Nat.Defs

namespace EfsControl
namespace Json

/-! ### What follows a number -/

/-- The text goes on with no digit. -/
def NoDigit (cs : List Char) : Prop := ∀ c ∈ cs.head?, c.isDigit = false

/-- The text goes on with nothing that could belong to a number, or not at all. -/
def Ends (cs : List Char) : Prop :=
  ∀ c ∈ cs.head?, c.isDigit = false ∧ c ≠ '.' ∧ isExponentMark c = false

theorem ends_cons {c : Char} (h : c ∈ [',', ':', ']', '\x7d', ' ', '\n', '\t', '\r'])
    (cs : List Char) : Ends (c :: cs) := by
  intro d hd
  obtain rfl : c = d := by simpa using hd
  simp only [List.mem_cons, List.not_mem_nil, or_false] at h
  rcases h with rfl | rfl | rfl | rfl | rfl | rfl | rfl | rfl <;> decide

theorem Ends.noDigit {cs : List Char} (h : Ends cs) : NoDigit cs := fun c hc => (h c hc).1

/-! ### The grammar of numbers -/

/-- Digits, at least one. -/
def IsDigits (cs : List Char) : Prop := cs ≠ [] ∧ ∀ c ∈ cs, c.isDigit = true

/-- The digits in front of a fraction: a zero alone, or digits that do not begin with one. -/
def IsWhole (cs : List Char) : Prop := IsDigits cs ∧ (cs = ['0'] ∨ cs.head? ≠ some '0')

/-- A fraction, if there is one. -/
inductive IsFraction : List Char → Prop
  | none : IsFraction []
  | digits {ds : List Char} (h : IsDigits ds) : IsFraction ('.' :: ds)

/-- An exponent, if there is one. -/
inductive IsExponent : List Char → Prop
  | none : IsExponent []
  | digits {mark : Char} {sign ds : List Char} (hm : isExponentMark mark = true)
    (hs : sign = [] ∨ sign = ['-'] ∨ sign = ['+']) (h : IsDigits ds) :
    IsExponent (mark :: (sign ++ ds))

/-- A number as JSON may have it. -/
inductive IsNumber : List Char → Prop
  | mk {sign whole fraction exponent : List Char} (hs : sign = [] ∨ sign = ['-'])
    (hw : IsWhole whole) (hf : IsFraction fraction) (he : IsExponent exponent) :
    IsNumber (sign ++ (whole ++ (fraction ++ exponent)))

theorem IsDigits.head {ds : List Char} (h : IsDigits ds) :
    ∃ d cs, ds = d :: cs ∧ d.isDigit = true := by
  obtain ⟨d, cs, rfl⟩ := List.exists_cons_of_ne_nil h.1
  exact ⟨d, cs, rfl, h.2 d List.mem_cons_self⟩

theorem readDigits_append {ds : List Char} (h : IsDigits ds) {rest : List Char}
    (hr : NoDigit rest) : readDigits (ds ++ rest) = .ok (ds, rest) := by
  have htake : (ds ++ rest).takeWhile Char.isDigit = ds := Text.takeWhile_run h.2 hr
  have hdrop : (ds ++ rest).dropWhile Char.isDigit = rest := Text.dropWhile_run h.2 hr
  obtain ⟨d, cs, rfl⟩ := List.exists_cons_of_ne_nil h.1
  rw [readDigits, htake, hdrop]

theorem readWhole_append {ds : List Char} (h : IsWhole ds) {rest : List Char}
    (hr : NoDigit rest) : readWhole (ds ++ rest) = .ok (ds, rest) := by
  obtain ⟨hdigits, rfl | hne⟩ := h
  · cases rest with
    | nil => rfl
    | cons c rest => simp [readWhole, hr c rfl]
  · obtain ⟨d, cs, rfl, -⟩ := hdigits.head
    rw [readWhole.eq_def]
    split
    · rename_i he
      exact absurd (congrArg some (List.cons.inj he).1) hne
    · exact readDigits_append hdigits hr

/-- What may follow the digits in front of a fraction. -/
theorem IsFraction.noDigit {cs : List Char} (h : IsFraction cs) {rest : List Char}
    (hr : NoDigit rest) : NoDigit (cs ++ rest) := by
  cases h with
  | none => exact hr
  | digits =>
    rintro c ⟨⟩
    decide

theorem IsFraction.read {cs : List Char} (h : IsFraction cs) {rest : List Char}
    (hr : NoDigit rest) (hdot : rest.head? ≠ some '.') :
    ∃ ds, readFraction (cs ++ rest) = .ok (ds, rest) := by
  cases h with
  | none =>
    refine ⟨[], ?_⟩
    rw [List.nil_append, readFraction.eq_def]
    split
    · exact absurd rfl hdot
    · rfl
  | digits h => exact ⟨_, readDigits_append h hr⟩

/-- What may follow a fraction. -/
theorem IsExponent.noDigit {cs : List Char} (h : IsExponent cs) {rest : List Char}
    (hr : Ends rest) : NoDigit (cs ++ rest) ∧ (cs ++ rest).head? ≠ some '.' := by
  cases h with
  | none => exact ⟨hr.noDigit, fun h => (hr '.' h).2.1 rfl⟩
  | @digits mark sign ds hm =>
    have hmark : mark = 'e' ∨ mark = 'E' := by simpa [isExponentMark] using hm
    refine ⟨?_, ?_⟩
    · rintro c ⟨⟩
      rcases hmark with rfl | rfl <;> decide
    · rintro ⟨⟩
      rcases hmark with h | h <;> cases h

theorem IsExponent.read {cs : List Char} (h : IsExponent cs) {rest : List Char} (hr : Ends rest) :
    ∃ n, readExponent (cs ++ rest) = .ok (n, rest) := by
  cases h with
  | none =>
    cases rest with
    | nil => exact ⟨Option.none, rfl⟩
    | cons c rest => exact ⟨Option.none, by simp [readExponent, (hr c rfl).2.2]⟩
  | @digits mark sign ds hm hs h =>
    have hbody : ∃ b, takeSign (sign ++ (ds ++ rest)) = (b, ds ++ rest) := by
      rcases hs with rfl | rfl | rfl
      · obtain ⟨d, cs, rfl, hd⟩ := h.head
        refine ⟨false, ?_⟩
        rw [List.nil_append, takeSign.eq_def]
        split
        · rename_i he
          cases (List.cons.inj he).1
          cases hd
        · rename_i he
          cases (List.cons.inj he).1
          cases hd
        · rfl
      · exact ⟨true, rfl⟩
      · exact ⟨false, rfl⟩
    obtain ⟨b, hb⟩ := hbody
    rw [List.cons_append, List.append_assoc, readExponent, if_pos hm, hb]
    simp only [readDigits_append h hr.noDigit, Except.map]
    exact ⟨_, rfl⟩

/-- A number is read over up to what follows it. -/
theorem IsNumber.scan {cs : List Char} (h : IsNumber cs) {rest : List Char} (hr : Ends rest) :
    ∃ n, scanNumber (cs ++ rest) = .ok (n, rest) := by
  obtain @⟨sign, whole, fraction, exponent, hs, hw, hf, he⟩ := h
  obtain ⟨hdigit, hdot⟩ := he.noDigit hr
  obtain ⟨ds, hfraction⟩ := hf.read hdigit hdot
  obtain ⟨n, hexponent⟩ := he.read hr
  have hunsigned (negative : Bool) : ∃ m, readUnsigned negative
      (whole ++ (fraction ++ (exponent ++ rest))) = .ok (m, rest) := by
    rw [readUnsigned, readWhole_append hw (hf.noDigit hdigit)]
    simp only [bind, Except.bind, hfraction, hexponent]
    exact ⟨_, rfl⟩
  simp only [List.append_assoc]
  rcases hs with rfl | rfl
  · obtain ⟨d, cs, rfl, hd⟩ := hw.1.head
    obtain ⟨m, hm⟩ := hunsigned false
    refine ⟨m, ?_⟩
    rw [List.nil_append, scanNumber.eq_def]
    split
    · rename_i he
      cases (List.cons.inj he).1
      cases hd
    · exact hm
  · exact hunsigned true

/-- The first character of a number is no blank and begins a number. -/
theorem IsNumber.head {cs : List Char} (h : IsNumber cs) :
    ∃ d ds, cs = d :: ds ∧ beginsNumber d = true := by
  obtain @⟨sign, whole, fraction, exponent, hs, hw, hf, he⟩ := h
  obtain ⟨d, ds, rfl, hd⟩ := hw.1.head
  rcases hs with rfl | rfl
  · exact ⟨d, _, rfl, by rw [beginsNumber, hd, Bool.or_true]⟩
  · exact ⟨'-', _, rfl, rfl⟩

theorem not_blank_of_beginsNumber {c : Char} (h : beginsNumber c = true) : isBlank c = false := by
  have hne {d : Char} (hd : beginsNumber d = false) : (c == d) = false :=
    beq_eq_false_iff_ne.mpr (Text.ne_of_test h hd)
  rw [isBlank, hne (by decide), hne (by decide), hne (by decide), hne (by decide)]
  rfl

/-! ### Whole numbers -/

theorem isDigits_digits (n : Nat) : IsDigits (Text.digits n) :=
  ⟨Text.digits_ne_nil n, fun _ hc => Text.isDigit_of_mem_digits hc⟩

theorem isWhole_digits (n : Nat) : IsWhole (Text.digits n) :=
  ⟨isDigits_digits n, Text.digits_front n⟩

theorem isNumber_intDigits (n : Int) : IsNumber (Text.intDigits n) := by
  cases n with
  | ofNat k =>
    have h := IsNumber.mk (.inl rfl) (isWhole_digits k) .none .none
    simpa [Text.intDigits] using h
  | negSucc k =>
    have h := IsNumber.mk (.inr rfl) (isWhole_digits (k + 1)) .none .none
    simpa [Text.intDigits] using h

/-- The digits of a whole number are read up to what follows them. -/
theorem readUnsigned_digits (negative : Bool) (n : Nat) {rest : List Char} (hr : Ends rest) :
    readUnsigned negative (Text.digits n ++ rest) = .ok (⟨negative, n, 0, true⟩, rest) := by
  have hfraction : readFraction rest = .ok ([], rest) := by
    rw [readFraction.eq_def]
    split
    · exact absurd rfl (hr '.' rfl).2.1
    · rfl
  have hexponent : readExponent rest = .ok (none, rest) := by
    cases rest with
    | nil => rfl
    | cons c rest => simp [readExponent, (hr c rfl).2.2]
  have hvalue := Text.ofDigitChars_digits n
  rw [readUnsigned, readWhole_append (isWhole_digits n) hr.noDigit]
  simp only [bind, Except.bind, hfraction, hexponent, List.append_nil, hvalue]
  rfl

/-- A number of at most twenty digits is none that a double cannot hold. -/
theorem exceedsDouble_eq_false {n : Nat} (h : n < 10 ^ 20) : Text.exceedsDouble n 0 = false := by
  have hlen : (Text.digits n).length ≤ 20 :=
    (Nat.length_toDigits_le_iff (by decide) (by decide)).2 h
  have hsmall : ((Text.digits n).length : Int) + 0 < 300 := by omega
  unfold Text.exceedsDouble
  by_cases hn : n = 0
  · simp only [hn, if_true]
  · simp only [hn, hsmall, if_false, if_true]

/-- A whole number is read up to what follows it. -/
theorem readNumber_intDigits {n : Int} (h : n.natAbs < 10 ^ 20) {rest : List Char}
    (hr : Ends rest) : readNumber (Text.intDigits n ++ rest) =
      .ok (⟨decide (n < 0), n.natAbs, 0, true⟩, rest) := by
  have hscan : scanNumber (Text.intDigits n ++ rest) =
      .ok (⟨decide (n < 0), n.natAbs, 0, true⟩, rest) := by
    cases n with
    | ofNat k =>
      have hneg : decide (Int.ofNat k < 0) = false := decide_eq_false (by simp)
      obtain ⟨d, ds, hk, hd⟩ := (isDigits_digits k).head
      rw [hneg, Text.intDigits, scanNumber.eq_def]
      split
      · rename_i he
        rw [hk] at he
        cases (List.cons.inj he).1
        cases hd
      · exact readUnsigned_digits false k hr
    | negSucc k =>
      have hneg : decide (Int.negSucc k < 0) = true := decide_eq_true (Int.negSucc_lt_zero k)
      rw [hneg, Text.intDigits, List.cons_append, scanNumber, readUnsigned_digits true (k + 1) hr]
      rfl
  rw [readNumber, hscan]
  simp only [bind, Except.bind, exceedsDouble_eq_false h]
  rfl

theorem integer?_eq (n : Int) : (Number.mk (decide (n < 0)) n.natAbs 0 true).integer? = some n := by
  unfold Number.integer?
  by_cases hn : n < 0
  · have hne : n.natAbs ≠ 0 := by omega
    have habs : -(n.natAbs : Int) = n := by omega
    simp only [hn, decide_true, Bool.not_true, Bool.false_eq_true, if_false, hne, habs]
  · have habs : (n.natAbs : Int) = n := by omega
    simp only [hn, decide_false, Bool.not_true, Bool.not_false, Bool.false_eq_true, if_false,
      if_true, habs]

/-- A whole number between the bounds is read as it was written. -/
theorem readInteger_intDigits {least greatest n : Int} (hl : least ≤ n) (hg : n ≤ greatest)
    (h : n.natAbs < 10 ^ 20) {rest : List Char} (hr : Ends rest) :
    readInteger readText least greatest (Text.intDigits n ++ rest) = .ok (n, rest) := by
  have hnumber := readNumber_intDigits h hr
  obtain ⟨d, ds, hd, hbegins⟩ := (isNumber_intDigits n).head
  rw [hd, List.cons_append] at hnumber ⊢
  have hskip : skipBlanks (d :: (ds ++ rest)) = d :: (ds ++ rest) :=
    List.dropWhile_cons_of_neg (by simp [not_blank_of_beginsNumber hbegins])
  simp only [readInteger, hskip, hbegins, if_true, hnumber, integer?_eq]
  simp [hl, hg]

end Json
end EfsControl
