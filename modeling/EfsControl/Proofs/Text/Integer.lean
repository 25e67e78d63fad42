/-
# Words for 32-bit integers

A word for an integer is one or more digits, perhaps with one sign in front.
The reader works in 32 bits: it takes the digits one after the other, gives up
at the first step that overflows, and counts downwards behind a minus sign.
It loses nothing by that, because the number read so far lies between zero and
the number in the end.

Key definitions: `SaysInt`, `signed`.
Key theorems: `pushDigit?_eq_some_iff`, `foldlM_pushDigit?_eq_some_iff`,
`saysInt_iff`, `readInt32?_eq_some_iff`.
-/
import EfsControl.Proofs.Text.Decimal
import Mathlib.Algebra.Ring.Int.Defs

namespace EfsControl
namespace Text

/-- A word for an integer: one or more digits, perhaps behind one sign. -/
def SaysInt (word : List Char) (v : Int) : Prop :=
  ∃ ds, ds ≠ [] ∧ (∀ d ∈ ds, d.isDigit = true) ∧
    ((word = ds ∨ word = '+' :: ds) ∧ v = Nat.ofDigitChars 10 ds 0 ∨
      word = '-' :: ds ∧ v = -(Nat.ofDigitChars 10 ds 0 : Int))

/-- A natural number, with a minus sign or without. -/
def signed (negative : Bool) (k : Nat) : Int := if negative then -(k : Int) else k

variable {ds cs : List Char} {a b m n : Int32} {j k : Nat} {v : Int} {c : Char} {negative : Bool}

/-! ### Checked arithmetic -/

/-- The integers that 32 bits hold. -/
theorem exists_toInt_eq_iff : (∃ n : Int32, n.toInt = v) ↔ -2 ^ 31 ≤ v ∧ v < 2 ^ 31 := by
  constructor
  · rintro ⟨n, rfl⟩
    exact ⟨n.le_toInt, n.toInt_lt⟩
  · rintro ⟨hlo, hhi⟩
    exact ⟨Int32.ofInt v, Int32.toInt_ofInt_of_le hlo hhi⟩

/-- A checked operation gives the exact result wherever there is one. -/
theorem checked_eq_some_iff {overflow : Bool}
    (hoverflow : overflow = true → v ≥ 2 ^ 31 ∨ v < -2 ^ 31)
    (hvalue : overflow = false → m.toInt = v) :
    (if overflow then none else some m) = some n ↔ n.toInt = v := by
  cases overflow with
  | true =>
    have hout := hoverflow rfl
    have hne : n.toInt ≠ v := by
      intro hn
      have hrange := exists_toInt_eq_iff.mp ⟨n, hn⟩
      omega
    simp [hne]
  | false =>
    have hm := hvalue rfl
    rw [if_neg Bool.false_ne_true, Option.some.injEq, ← hm, Int32.toInt_inj]
    exact eq_comm

theorem checkedMul_eq_some_iff : checkedMul a b = some n ↔ n.toInt = a.toInt * b.toInt :=
  checked_eq_some_iff
    (fun h => by simpa [BitVec.smulOverflow] using h)
    (fun h => by simpa using BitVec.toInt_mul_of_not_smulOverflow (Bool.eq_false_iff.mp h))

theorem checkedAdd_eq_some_iff : checkedAdd a b = some n ↔ n.toInt = a.toInt + b.toInt :=
  checked_eq_some_iff
    (fun h => by simpa [BitVec.saddOverflow] using h)
    (fun h => by simpa using BitVec.toInt_add_of_not_saddOverflow (Bool.eq_false_iff.mp h))

theorem checkedSub_eq_some_iff : checkedSub a b = some n ↔ n.toInt = a.toInt - b.toInt :=
  checked_eq_some_iff
    (fun h => by simpa [BitVec.ssubOverflow] using h)
    (fun h => by simpa using BitVec.toInt_sub_of_not_ssubOverflow (Bool.eq_false_iff.mp h))

/-! ### Digit by digit -/

/-- What lies nearer to zero takes no more than 32 bits either. -/
theorem exists_toInt_of_le (hk : n.toInt = signed negative k) (hj : j ≤ k) :
    ∃ m : Int32, m.toInt = signed negative j := by
  have hlo := n.le_toInt
  have hhi := n.toInt_lt
  refine exists_toInt_eq_iff.mpr ?_
  cases negative with
  | true =>
    have hk : n.toInt = -(k : Int) := hk
    show -2 ^ 31 ≤ -(j : Int) ∧ -(j : Int) < 2 ^ 31
    omega
  | false =>
    have hk : n.toInt = (k : Int) := hk
    show -2 ^ 31 ≤ (j : Int) ∧ (j : Int) < 2 ^ 31
    omega

/-- The last step of one more digit. -/
theorem addDigit_eq_some_iff (hc : c.isDigit = true) :
    (if negative then checkedSub m (Int32.ofNat (c.toNat - '0'.toNat))
      else checkedAdd m (Int32.ofNat (c.toNat - '0'.toNat))) = some n ↔
      n.toInt = m.toInt + signed negative (c.toNat - '0'.toNat) := by
  have hle := digitValue_le hc
  have hdigit : (Int32.ofNat (c.toNat - '0'.toNat)).toInt = ((c.toNat - '0'.toNat : Nat) : Int) :=
    Int32.toInt_ofNat_of_lt (by omega)
  cases negative with
  | true =>
    rw [if_pos rfl, checkedSub_eq_some_iff, hdigit, Int.sub_eq_add_neg]
    exact Iff.rfl
  | false =>
    rw [if_neg Bool.false_ne_true, checkedAdd_eq_some_iff, hdigit]
    exact Iff.rfl

/-- One more digit is read where the number with it takes no more than 32 bits. -/
theorem pushDigit?_eq_some_iff (hm : m.toInt = signed negative k) :
    pushDigit? negative m c = some n ↔
      c.isDigit = true ∧ n.toInt = signed negative (10 * k + (c.toNat - '0'.toNat)) := by
  have hten : (10 : Int32).toInt = 10 := rfl
  have htimes : signed negative k * 10 = signed negative (10 * k) := by
    cases negative <;> simp only [signed, if_true, Bool.false_eq_true, if_false] <;> omega
  have hplus (d : Nat) :
      signed negative (10 * k) + signed negative d = signed negative (10 * k + d) := by
    cases negative <;> simp only [signed, if_true, Bool.false_eq_true, if_false] <;> omega
  unfold pushDigit?
  split
  · rename_i hc
    simp only [Option.bind_eq_some_iff, checkedMul_eq_some_iff, addDigit_eq_some_iff hc, hc,
      true_and, hm, hten, htimes]
    constructor
    · rintro ⟨tenfold, hmul, hadd⟩
      rw [hadd, hmul, hplus]
    · intro hn
      -- Ten times the number is nearer to zero than that with the digit.
      obtain ⟨tenfold, hmul⟩ := exists_toInt_of_le hn (Nat.le_add_right _ _)
      exact ⟨tenfold, hmul, by rw [hmul, hplus, hn]⟩
  · rename_i hc
    simp [hc]

theorem le_ofDigitChars (k : Nat) (ds : List Char) : k ≤ Nat.ofDigitChars 10 ds k := by
  induction ds generalizing k with
  | nil => exact Nat.le_refl k
  | cons d ds ih =>
    rw [Nat.ofDigitChars_cons]
    have hnext := ih (10 * k + (d.toNat - '0'.toNat))
    omega

/-- All digits are read where the number in the end takes no more than 32 bits. -/
theorem foldlM_pushDigit?_eq_some_iff (hm : m.toInt = signed negative k) :
    ds.foldlM (pushDigit? negative) m = some n ↔
      (∀ d ∈ ds, d.isDigit = true) ∧ n.toInt = signed negative (Nat.ofDigitChars 10 ds k) := by
  induction ds generalizing m k with
  | nil =>
    rw [List.foldlM_nil, Nat.ofDigitChars_nil, ← hm, Int32.toInt_inj]
    exact ⟨fun h => ⟨by simp, (Option.some.inj h).symm⟩, fun h => congrArg some h.2.symm⟩
  | cons d ds ih =>
    rw [List.foldlM_cons, Nat.ofDigitChars_cons, List.forall_mem_cons]
    constructor
    · intro hread
      obtain ⟨next, hnext, hrest⟩ := Option.bind_eq_some_iff.mp hread
      obtain ⟨hd, hvalue⟩ := (pushDigit?_eq_some_iff hm).mp hnext
      obtain ⟨hds, hend⟩ := (ih hvalue).mp hrest
      exact ⟨⟨hd, hds⟩, hend⟩
    · rintro ⟨⟨hd, hds⟩, hend⟩
      -- The number so far is nearer to zero than the one in the end, so it does not overflow.
      obtain ⟨next, hvalue⟩ := exists_toInt_of_le hend (le_ofDigitChars _ ds)
      have hnext := (pushDigit?_eq_some_iff hm).mpr ⟨hd, hvalue⟩
      exact Option.bind_eq_some_iff.mpr ⟨next, hnext, (ih hvalue).mpr ⟨hds, hend⟩⟩

theorem readSigned?_eq_some_iff :
    readSigned? negative ds = some n ↔ ∃ k, readNat? ds = some k ∧ signed negative k = n.toInt := by
  have hzero : (0 : Int32).toInt = signed negative 0 := by cases negative <;> rfl
  simp only [readNat?_eq_some_iff]
  unfold readSigned?
  split
  · rename_i hempty
    simp [List.isEmpty_iff.mp hempty]
  · rename_i hne
    have hne : ds ≠ [] := List.isEmpty_iff.not.mp hne
    rw [foldlM_pushDigit?_eq_some_iff hzero]
    constructor
    · rintro ⟨hdigits, hvalue⟩
      exact ⟨Nat.ofDigitChars 10 ds 0, ⟨hne, hdigits, rfl⟩, hvalue.symm⟩
    · rintro ⟨k, ⟨-, hdigits, rfl⟩, hvalue⟩
      exact ⟨hdigits, hvalue.symm⟩

/-! ### Whole words -/

/-- The words for integers are read without a bound. -/
theorem saysInt_iff : SaysInt cs v ↔ readInteger? cs = some v := by
  unfold readInteger?
  split
  · rename_i ds
    simp only [Option.map_eq_some_iff, readNat?_eq_some_iff]
    constructor
    · rintro ⟨es, hne, hdigits, ⟨hword | hword, -⟩ | ⟨hword, rfl⟩⟩
      · have hminus := hdigits '-' (hword ▸ List.mem_cons_self)
        exact absurd hminus (by decide)
      · cases hword
      · obtain rfl := (List.cons.inj hword).2
        exact ⟨Nat.ofDigitChars 10 ds 0, ⟨hne, hdigits, rfl⟩, rfl⟩
    · rintro ⟨k, ⟨hne, hdigits, rfl⟩, rfl⟩
      exact ⟨ds, hne, hdigits, .inr ⟨rfl, rfl⟩⟩
  · rename_i hplain
    simp only [Option.map_eq_some_iff, ← says_iff]
    constructor
    · rintro ⟨ds, hne, hdigits, ⟨hword, rfl⟩ | ⟨hword, -⟩⟩
      · exact ⟨Nat.ofDigitChars 10 ds 0, ⟨ds, hword, hne, hdigits, rfl⟩, rfl⟩
      · exact absurd hword (hplain ds)
    · rintro ⟨k, ⟨ds, hword, hne, hdigits, rfl⟩, rfl⟩
      exact ⟨ds, hne, hdigits, .inl ⟨hword, rfl⟩⟩

/-- A word says at most one integer. -/
theorem SaysInt.unique {w : Int} (hv : SaysInt cs v) (hw : SaysInt cs w) : v = w := by
  rw [saysInt_iff] at hv hw
  exact Option.some.inj (hv.symm.trans hw)

/-- **The words that are read as a 32-bit integer are the words for its value.** -/
theorem readInt32?_eq_some_iff : readInt32? cs = some n ↔ SaysInt cs n.toInt := by
  rw [saysInt_iff]
  unfold readInt32? readInteger?
  split <;> rw [readSigned?_eq_some_iff, Option.map_eq_some_iff] <;> exact Iff.rfl

/-- A word for an integer is read where 32 bits hold it. -/
theorem SaysInt.readInt32? (h : SaysInt cs v) :
    readInt32? cs = if -2 ^ 31 ≤ v ∧ v < 2 ^ 31 then some (Int32.ofInt v) else none := by
  split
  · rename_i hrange
    rw [readInt32?_eq_some_iff, Int32.toInt_ofInt_of_le hrange.1 hrange.2]
    exact h
  · rename_i hrange
    rw [Option.eq_none_iff_forall_ne_some]
    intro n hn
    have hv := h.unique (readInt32?_eq_some_iff.mp hn)
    exact hrange (exists_toInt_eq_iff.mp ⟨n, hv.symm⟩)

end Text
end EfsControl
