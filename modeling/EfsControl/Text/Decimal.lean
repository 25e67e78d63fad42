/-
# Decimal integers

Integers are written in decimal without leading zeros. They are read with an
optional sign in front of one or more ASCII digits, and only within the range
that is asked for; leading zeros are allowed, nothing else is. A 32-bit signed
integer is read in 32 bits, with a check for overflow at each step.

Key definitions: `digits`, `intDigits`, `readNat?`, `readUpTo?`, `readInt?`,
`readInt32?`.
-/
namespace EfsControl
namespace Text

/-- A natural number in decimal. -/
def digits (n : Nat) : List Char := Nat.toDigits 10 n

/-- An integer in decimal, with a minus sign in front of a negative one. -/
def intDigits : Int → List Char
  | .ofNat n => digits n
  | .negSucc n => '-' :: digits (n + 1)

/-- One or more ASCII digits. -/
def isNumeral (cs : List Char) : Bool := !cs.isEmpty && cs.all Char.isDigit

/-- The value of one or more ASCII digits. -/
def readNat? (cs : List Char) : Option Nat :=
  if isNumeral cs then some (Nat.ofDigitChars 10 cs 0) else none

/-- The text after an optional plus sign. -/
def dropPlus : List Char → List Char
  | '+' :: cs => cs
  | cs => cs

/-- An optional plus sign and digits with a value of at most `max`. -/
def readUpTo? (max : Nat) (cs : List Char) : Option Nat :=
  (readNat? (dropPlus cs)).filter (· ≤ max)

/-- An optional sign and digits, of any size. -/
def readInteger? : List Char → Option Int
  | '-' :: cs => (readNat? cs).map fun n : Nat => -(n : Int)
  | cs => (readNat? (dropPlus cs)).map Int.ofNat

/-- An optional sign and digits with a value between `lo` and `hi`. -/
def readInt? (lo hi : Int) (cs : List Char) : Option Int :=
  (readInteger? cs).filter fun n => lo ≤ n && n ≤ hi

/-- The least signed integer of 32 bits. -/
def leastInt32 : Int := -2147483648

/-- The greatest signed integer of 32 bits. -/
def greatestInt32 : Int := 2147483647

/-- A 32-bit unsigned integer. -/
def readUInt32? (cs : List Char) : Option UInt32 := (readUpTo? (UInt32.size - 1) cs).map UInt32.ofNat

/-- The product, unless it takes more than 32 bits. -/
def checkedMul (m n : Int32) : Option Int32 :=
  if m.toBitVec.smulOverflow n.toBitVec then none else some (m * n)

/-- The sum, unless it takes more than 32 bits. -/
def checkedAdd (m n : Int32) : Option Int32 :=
  if m.toBitVec.saddOverflow n.toBitVec then none else some (m + n)

/-- The difference, unless it takes more than 32 bits. -/
def checkedSub (m n : Int32) : Option Int32 :=
  if m.toBitVec.ssubOverflow n.toBitVec then none else some (m - n)

/-- The number with one more digit at its end. A negative number grows downwards, since the least
one has no counterpart above zero. -/
def pushDigit? (negative : Bool) (n : Int32) (c : Char) : Option Int32 :=
  if c.isDigit then
    let digit := Int32.ofNat (c.toNat - '0'.toNat)
    (checkedMul n 10).bind fun n => if negative then checkedSub n digit else checkedAdd n digit
  else none

/-- The value of one or more digits, with or without a minus sign in front. -/
def readSigned? (negative : Bool) (ds : List Char) : Option Int32 :=
  if ds.isEmpty then none else ds.foldlM (pushDigit? negative) 0

/-- A 32-bit signed integer. -/
def readInt32? : List Char → Option Int32
  | '-' :: ds => readSigned? true ds
  | cs => readSigned? false (dropPlus cs)

/-- Reading undoes writing. -/
theorem readNat?_digits (n : Nat) : readNat? (digits n) = some n := by
  have h : isNumeral (digits n) = true := by
    have hd : (digits n).all Char.isDigit = true :=
      List.all_eq_true.mpr fun _ hc => Nat.isDigit_of_mem_toDigits (by decide) (by decide) hc
    have hn : digits n ≠ [] := Nat.toDigits_ne_nil
    simp [isNumeral, hd, hn]
  simp only [readNat?, h, if_true]
  exact congrArg some Nat.ofDigitChars_ten_toDigits

/-- Digits have no sign in front. -/
theorem dropPlus_digits (n : Nat) : dropPlus (digits n) = digits n := by
  cases h : digits n with
  | nil => rfl
  | cons c cs =>
    have hmem : c ∈ Nat.toDigits 10 n := by
      rw [show Nat.toDigits 10 n = c :: cs from h]
      exact List.mem_cons_self
    have hc : c.isDigit = true := Nat.isDigit_of_mem_toDigits (by decide) (by decide) hmem
    have hplus : c ≠ '+' := fun he => by
      rw [he] at hc
      exact absurd hc (by decide)
    unfold dropPlus
    split
    · rename_i he
      exact absurd (List.cons.inj he).1 hplus
    · rfl

theorem readUInt32?_digits (n : UInt32) : readUInt32? (digits n.toNat) = some n := by
  have hmax : decide (n.toNat ≤ UInt32.size - 1) = true := decide_eq_true (Nat.le_sub_one_of_lt n.toNat_lt)
  rw [readUInt32?, readUpTo?, dropPlus_digits, readNat?_digits, Option.filter_some, if_pos hmax,
    Option.map_some, UInt32.ofNat_toNat]

end Text
end EfsControl
