/-
# Unquoted values come back

A natural number is read from its decimal digits as what it is, and an unquoted
value is taken up to the end of its line.

Key theorems: `readInteger?_digits`, `readScalar?_digits`, `takeScalar_append`.
-/
import EfsControl.Proofs.Text.Decimal
import EfsControl.Toml.Scalar

namespace EfsControl
namespace Toml

/-- Digits without an underscore are one group. -/
theorem readGrouped?_self {isDigit : Char → Bool} {cs : List Char} (hne : cs ≠ [])
    (hmark : isDigit '_' = false) (h : ∀ c ∈ cs, isDigit c = true) :
    readGrouped? isDigit cs = some cs := by
  induction cs with
  | nil => exact absurd rfl hne
  | cons c cs ih =>
    have hc : isDigit c = true := h c List.mem_cons_self
    cases cs with
    | nil => rw [readGrouped?, if_pos hc]
    | cons d ds =>
      have htail : ∀ e ∈ d :: ds, isDigit e = true := fun e he => h e (List.mem_cons_of_mem c he)
      have hd : d ≠ '_' := by
        rintro rfl
        exact absurd (htail '_' List.mem_cons_self) (by rw [hmark]; decide)
      have hread := ih (List.cons_ne_nil d ds) htail
      rw [readGrouped?.eq_4 _ _ _ (by simp) (fun _ he => hd (List.cons.inj he).1), if_pos hc, hread]
      rfl

/-- The value of decimal digits is the number that they write. -/
theorem valueIn_ten {ds : List Char} (h : ∀ c ∈ ds, c.isDigit = true) :
    valueIn 10 ds = Nat.ofDigitChars 10 ds 0 := by
  have hfold : ∀ n, ds.foldl (fun n c => n * 10 + digitValue c) n = Nat.ofDigitChars 10 ds n := by
    induction ds with
    | nil => intro n; rfl
    | cons d ds ih =>
      intro n
      have hd : digitValue d = d.toNat - '0'.toNat := if_pos (h d List.mem_cons_self)
      rw [List.foldl_cons, ih fun c hc => h c (List.mem_cons_of_mem d hc), hd, Nat.mul_comm n 10]
      rfl
  exact hfold 0

theorem valueIn_digits (n : Nat) : valueIn 10 (Text.digits n) = n := by
  rw [valueIn_ten fun _ hc => Text.isDigit_of_mem_digits hc, Text.ofDigitChars_digits]

/-- The digits of a number have no leading zero. -/
theorem readPlainDigits?_digits (n : Nat) :
    readPlainDigits? (Text.digits n) = some (Text.digits n) := by
  have hread : readGrouped? Char.isDigit (Text.digits n) = some (Text.digits n) :=
    readGrouped?_self (Text.digits_ne_nil n) rfl fun _ hc => Text.isDigit_of_mem_digits hc
  rw [readPlainDigits?, hread]
  split
  · rename_i heq
    have hdigits := Option.some.inj heq
    rcases Text.digits_front n with h | h
    · rw [h] at hdigits
      cases hdigits
    · rw [hdigits] at h
      exact absurd rfl h
  · rfl

/-- A number is read from its digits. -/
theorem readInteger?_digits (n : Nat) : readInteger? (Text.digits n) = some (n : Int) := by
  have hfront {c d : Char} {cs : List Char} (h : Text.digits n = c :: cs) (hd : d.isDigit = false) :
      c ≠ d := by
    have hc : c.isDigit = true := Text.isDigit_of_mem_digits (n := n) (by rw [h]; simp)
    exact Text.ne_of_test hc hd
  have hbased {m : Char} {cs : List Char} : Text.digits n ≠ '0' :: m :: cs := by
    intro h
    rcases Text.digits_front n with hzero | hzero
    · rw [hzero] at h
      cases h
    · rw [h] at hzero
      exact hzero rfl
  have hsign : takeSign (Text.digits n) = (false, Text.digits n) := by
    unfold takeSign
    split
    · exact absurd rfl (hfront ‹_› rfl)
    · exact absurd rfl (hfront ‹_› rfl)
    · rfl
  rw [readInteger?.eq_4 _ (fun _ => hbased) (fun _ => hbased) (fun _ => hbased), hsign]
  simp only [readPlainDigits?_digits, valueIn_digits, Option.map_some, Bool.false_eq_true, if_false]

theorem readScalar?_digits (n : Nat) : readScalar? (Text.digits n) = some (.integer n) := by
  have hword {w : List Char} (hw : ∃ c ∈ w, c.isDigit = false) : Text.digits n ≠ w := by
    rintro rfl
    obtain ⟨c, hc, hd⟩ := hw
    cases hd.symm.trans (Text.isDigit_of_mem_digits hc)
  rw [readScalar?, if_neg (hword ⟨'t', by decide⟩), if_neg (hword ⟨'f', by decide⟩),
    readInteger?_digits]

/-- An unquoted value is taken up to the end of its line. -/
theorem takeScalar_append {t : List Char} (h : ∀ c ∈ t, isScalarChar c = true) (rest : List Char) :
    takeScalar (t ++ '\n' :: rest) = (t, '\n' :: rest) := by
  have hend : ∀ c ∈ ('\n' :: rest).head?, isScalarChar c = false := by
    rintro c ⟨⟩
    rfl
  have hword : (t ++ '\n' :: rest).takeWhile isScalarChar = t := Text.takeWhile_run h hend
  have hrest : (t ++ '\n' :: rest).dropWhile isScalarChar = '\n' :: rest :=
    Text.dropWhile_run h hend
  unfold takeScalar
  simp only [hword, hrest]
  split
  · rename_i heq
    exact absurd (List.cons.inj heq).1 (by decide)
  · rfl

end Toml
end EfsControl
