/-
# Runs of characters

A text that begins with characters of one kind is split where the first of
another kind stands. The decimal digits of a natural number are such a run: at
least one, with a zero in front only if the number is zero.

A word for a number may have more zeros in front, and one plus sign.

Key definitions: `Trims`, `Says`.
Key theorems: `takeWhile_run`, `dropWhile_run`, `dropEndWhile_eq_self`,
`trims_iff`, `isDigit_of_mem_digits`, `digits_front`, `readUpTo?_eq_some_iff`.
-/
import EfsControl.Text.Blank
import EfsControl.Text.Decimal
import Mathlib.Algebra.Group.Nat.Defs
import Mathlib.Tactic.Common

namespace EfsControl
namespace Text

/-! ### Characters of one kind -/

section
variable {p : Char → Bool} {run rest : List Char}

/-- A character that passes a test is not one that fails it. -/
theorem ne_of_test {c d : Char} (hc : p c = true) (hd : p d = false) : c ≠ d := by
  rintro rfl
  cases hd.symm.trans hc

theorem takeWhile_run (h : ∀ c ∈ run, p c = true) (hr : ∀ c ∈ rest.head?, p c = false) :
    (run ++ rest).takeWhile p = run := by
  rw [List.takeWhile_append_of_pos h]
  cases rest with
  | nil => simp
  | cons c rest => rw [List.takeWhile_cons_of_neg (by simp [hr c rfl]), List.append_nil]

theorem dropWhile_run (h : ∀ c ∈ run, p c = true) (hr : ∀ c ∈ rest.head?, p c = false) :
    (run ++ rest).dropWhile p = rest := by
  rw [List.dropWhile_append_of_pos h]
  cases rest with
  | nil => rfl
  | cons c rest => rw [List.dropWhile_cons_of_neg (by simp [hr c rfl])]

/-- A text that does not end with such a character ends as it is. -/
theorem dropEndWhile_eq_self {cs : List Char} (h : ∀ c ∈ cs.getLast?, p c = false) :
    dropEndWhile p cs = cs := by
  induction cs with
  | nil => rfl
  | cons c cs ih =>
    cases cs with
    | nil =>
      have hc : p c = false := h c rfl
      simp [dropEndWhile, hc]
    | cons d ds =>
      rw [dropEndWhile, ih h]

/-- A run at the end is dropped with what else is dropped there. -/
theorem dropEndWhile_append (h : ∀ c ∈ run, p c = true) (cs : List Char) :
    dropEndWhile p (cs ++ run) = dropEndWhile p cs := by
  induction cs with
  | nil =>
    induction run with
    | nil => rfl
    | cons c run ih =>
      obtain ⟨hc, hrun⟩ := List.forall_mem_cons.mp h
      have hdrop : dropEndWhile p run = [] := ih hrun
      simp [dropEndWhile, hdrop, hc]
  | cons c cs ih => rw [List.cons_append, dropEndWhile, dropEndWhile, ih]

/-- What is dropped at the end is a run, and the rest does not end in such a character. -/
theorem dropEndWhile_split (p : Char → Bool) (cs : List Char) :
    ∃ run, cs = dropEndWhile p cs ++ run ∧ (∀ c ∈ run, p c = true) ∧
      ∀ c ∈ (dropEndWhile p cs).getLast?, p c = false := by
  induction cs with
  | nil => exact ⟨[], rfl, by simp, by simp [dropEndWhile]⟩
  | cons c cs ih =>
    obtain ⟨run, hcs, hrun, hlast⟩ := ih
    rw [dropEndWhile]
    split
    · rename_i hnil
      rw [hnil, List.nil_append] at hcs
      subst hcs
      by_cases hc : p c = true
      · rw [if_pos hc]
        exact ⟨c :: cs, rfl, List.forall_mem_cons.mpr ⟨hc, hrun⟩, by simp⟩
      · rw [if_neg hc]
        exact ⟨cs, rfl, hrun, by simpa using hc⟩
    · rename_i d ds hcons
      rw [hcons] at hcs hlast
      refine ⟨run, congrArg (c :: ·) hcs, hrun, ?_⟩
      rwa [List.getLast?_cons_cons]

end

/-! ### Blanks around a text -/

/-- What is left of a text without the blanks at both ends: it neither begins nor ends with one. -/
def Trims (text middle : List Char) : Prop :=
  ∃ lead trail, text = lead ++ middle ++ trail ∧ (∀ c ∈ lead, isBlank c = true) ∧
    (∀ c ∈ trail, isBlank c = true) ∧ (∀ c ∈ middle.head?, isBlank c = false) ∧
    ∀ c ∈ middle.getLast?, isBlank c = false

theorem trims_trim (text : List Char) : Trims text (trim text) := by
  have hlead := List.takeWhile_append_dropWhile (p := isBlank) (l := text)
  obtain ⟨trail, htrail, hblank, hlast⟩ := dropEndWhile_split isBlank (text.dropWhile isBlank)
  have hfront := List.head?_dropWhile_not isBlank text
  refine ⟨text.takeWhile isBlank, trail, ?_, ?_, hblank, ?_, hlast⟩
  · rw [List.append_assoc, trim, ← htrail, hlead]
  · exact List.all_eq_true.mp List.all_takeWhile
  · intro c hc
    have hc : (text.dropWhile isBlank).head? = some c := by
      have hkept : (dropEndWhile isBlank (text.dropWhile isBlank)).head? = some c := hc
      rw [htrail, List.head?_append, hkept, Option.some_or]
    rwa [hc] at hfront

theorem Trims.trim_eq {text middle : List Char} (h : Trims text middle) : trim text = middle := by
  obtain ⟨lead, trail, rfl, hlead, htrail, hfirst, hlast⟩ := h
  rw [trim, List.append_assoc, List.dropWhile_append_of_pos hlead]
  cases middle with
  | nil =>
    have hdrop : trail.dropWhile isBlank = [] := by
      have hall : (trail ++ []).dropWhile isBlank = [].dropWhile isBlank :=
        List.dropWhile_append_of_pos htrail
      rwa [List.append_nil, List.dropWhile_nil] at hall
    rw [List.nil_append, hdrop, dropEndWhile]
  | cons c middle =>
    have hc : isBlank c = false := hfirst c rfl
    rw [List.cons_append, List.dropWhile_cons_of_neg (by simp [hc]), ← List.cons_append,
      dropEndWhile_append htrail, dropEndWhile_eq_self hlast]

/-- Trimming leaves the one part of the text that is without blanks at its ends. -/
theorem trims_iff {text middle : List Char} : Trims text middle ↔ trim text = middle := by
  constructor
  · exact Trims.trim_eq
  · rintro rfl
    exact trims_trim text

/-! ### Decimal digits -/

theorem digits_ne_nil (n : Nat) : digits n ≠ [] := Nat.toDigits_ne_nil

theorem isDigit_of_mem_digits {n : Nat} {c : Char} (h : c ∈ digits n) : c.isDigit = true :=
  Nat.isDigit_of_mem_toDigits (by decide) (by decide) h

theorem ofDigitChars_digits (n : Nat) : Nat.ofDigitChars 10 (digits n) 0 = n :=
  Nat.ofDigitChars_ten_toDigits

/-- Only zero is written with a zero in front. -/
theorem digits_front (n : Nat) : digits n = ['0'] ∨ (digits n).head? ≠ some '0' := by
  induction n using Nat.strongRecOn with
  | ind n ih =>
    by_cases hn : n < 10
    · have hsmall : ∀ k : Fin 10, Nat.digitChar k = '0' ∨ Nat.digitChar k ≠ '0' := by decide
      rw [digits, Nat.toDigits_of_lt_base hn]
      rcases hsmall ⟨n, hn⟩ with h | h
      · exact .inl (congrArg (fun c => [c]) h)
      · exact .inr fun he => h (Option.some.inj he)
    · have hstep : digits n = digits (n / 10) ++ [Nat.digitChar (n % 10)] :=
        Nat.toDigits_of_base_le (by decide) (by omega)
      rcases ih (n / 10) (by omega) with h | h
      · -- The digits in front are those of a number from one on, so they are not zero alone.
        have hvalue := ofDigitChars_digits (n / 10)
        have hzero : Nat.ofDigitChars 10 ['0'] 0 = 0 := by decide
        rw [h, hzero] at hvalue
        omega
      · obtain ⟨d, ds, hd⟩ := List.exists_cons_of_ne_nil (digits_ne_nil (n / 10))
        rw [hd] at h
        rw [hstep, hd]
        exact .inr h

/-! ### Words for numbers -/

variable {cs : List Char} {n : Nat}

/-- A word for a number: one or more digits, with any number of zeros in front, perhaps behind a
plus sign. -/
def Says (word : List Char) (n : Nat) : Prop :=
  ∃ ds, (word = ds ∨ word = '+' :: ds) ∧ ds ≠ [] ∧ (∀ d ∈ ds, d.isDigit = true) ∧
    Nat.ofDigitChars 10 ds 0 = n

theorem readNat?_eq_some_iff :
    readNat? cs = some n ↔
      cs ≠ [] ∧ (∀ c ∈ cs, c.isDigit = true) ∧ Nat.ofDigitChars 10 cs 0 = n := by
  have hnumeral : isNumeral cs = true ↔ cs ≠ [] ∧ ∀ c ∈ cs, c.isDigit = true := by simp [isNumeral]
  unfold readNat?
  split
  · rename_i h
    obtain ⟨hne, hdigits⟩ := hnumeral.mp h
    rw [Option.some.injEq]
    exact ⟨fun hvalue => ⟨hne, hdigits, hvalue⟩, fun hread => hread.2.2⟩
  · rename_i h
    constructor
    · intro hnone
      cases hnone
    · rintro ⟨hne, hdigits, -⟩
      exact absurd (hnumeral.mpr ⟨hne, hdigits⟩) h

theorem says_iff : Says cs n ↔ readNat? (dropPlus cs) = some n := by
  rw [readNat?_eq_some_iff]
  constructor
  · rintro ⟨ds, hcs, hne, hdigits, hvalue⟩
    have hdrop : dropPlus cs = ds := by
      rcases hcs with rfl | rfl
      · unfold dropPlus
        split
        · exact absurd (hdigits '+' List.mem_cons_self) (by decide)
        · rfl
      · rfl
    rw [hdrop]
    exact ⟨hne, hdigits, hvalue⟩
  · rintro ⟨hne, hdigits, hvalue⟩
    refine ⟨dropPlus cs, ?_, hne, hdigits, hvalue⟩
    unfold dropPlus
    split
    · exact .inr rfl
    · exact .inl rfl

/-- What is read within a range are the words for the numbers of the range. -/
theorem readUpTo?_eq_some_iff {max : Nat} : readUpTo? max cs = some n ↔ Says cs n ∧ n ≤ max := by
  rw [readUpTo?, Option.filter_eq_some_iff, ← says_iff, decide_eq_true_iff]

/-- A digit is worth at most nine. -/
theorem digitValue_le {c : Char} (h : c.isDigit = true) : c.toNat - '0'.toNat ≤ 9 := by
  simp only [Char.isDigit, Bool.and_eq_true, decide_eq_true_eq, UInt32.le_iff_toNat_le] at h
  have hnine : '9'.val.toNat = 57 := rfl
  have hzero : '0'.toNat = 48 := rfl
  have hle : c.toNat ≤ 57 := h.2
  omega

/-- So many digits say a number below that power of ten. -/
theorem ofDigitChars_lt (h : ∀ c ∈ cs, c.isDigit = true) :
    Nat.ofDigitChars 10 cs 0 < 10 ^ cs.length := by
  induction cs with
  | nil => simp
  | cons c cs ih =>
    obtain ⟨hc, hcs⟩ := List.forall_mem_cons.mp h
    have hvalue := digitValue_le hc
    have hrest := ih hcs
    rw [Nat.ofDigitChars_cons, Nat.ofDigitChars_eq_ofDigitChars_zero, Nat.mul_zero, Nat.zero_add,
      List.length_cons, Nat.pow_succ]
    have hstep : 10 ^ cs.length * (c.toNat - '0'.toNat) ≤ 10 ^ cs.length * 9 :=
      Nat.mul_le_mul_left _ hvalue
    omega

end Text
end EfsControl
