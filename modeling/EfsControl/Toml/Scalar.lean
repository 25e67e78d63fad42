/-
# Unquoted values

Truth values, whole numbers, fractions, dates and times. In the digits of a
number underscores may separate groups. A decimal number has no leading zero;
hexadecimal, octal and binary numbers have a mark in front and no sign.

Key definitions: `readGrouped?`, `readInteger?`, `readFloat?`, `isMoment`,
`readScalar?`.
-/
import EfsControl.Text.Magnitude
import EfsControl.Toml.Value

namespace EfsControl
namespace Toml

/-! ### Numbers -/

/-- The digits of a number, whose groups a single underscore may separate. -/
def readGrouped? (isDigit : Char → Bool) : List Char → Option (List Char)
  | [] => none
  | [c] => if isDigit c then some [c] else none
  | c :: '_' :: cs => if isDigit c then (readGrouped? isDigit cs).map (c :: ·) else none
  | c :: cs => if isDigit c then (readGrouped? isDigit cs).map (c :: ·) else none

/-- Digits without a leading zero. -/
def readPlainDigits? (cs : List Char) : Option (List Char) :=
  match readGrouped? Char.isDigit cs with
  | some ('0' :: _ :: _) => none
  | ds => ds

/-- The value of a digit, also of one above nine. -/
def digitValue (c : Char) : Nat :=
  if c.isDigit then c.toNat - '0'.toNat
  else if 'a' ≤ c && c ≤ 'f' then c.toNat - 'a'.toNat + 10
  else if 'A' ≤ c && c ≤ 'F' then c.toNat - 'A'.toNat + 10
  else 16

/-- The value of digits in a base. -/
def valueIn (base : Nat) (ds : List Char) : Nat :=
  ds.foldl (fun n c => n * base + digitValue c) 0

/-- A number in another base than ten. -/
def readBased? (base : Nat) (cs : List Char) : Option Int :=
  (readGrouped? (digitValue · < base) cs).map fun ds => (valueIn base ds : Int)

/-- Whether a sign is there and negative, and the text after it. -/
def takeSign : List Char → Bool × List Char
  | '-' :: cs => (true, cs)
  | '+' :: cs => (false, cs)
  | cs => (false, cs)

/-- A whole number. -/
def readInteger? : List Char → Option Int
  | '0' :: 'x' :: cs => readBased? 16 cs
  | '0' :: 'o' :: cs => readBased? 8 cs
  | '0' :: 'b' :: cs => readBased? 2 cs
  | cs =>
    let (negative, body) := takeSign cs
    (readPlainDigits? body).map fun ds =>
      if negative then -(valueIn 10 ds : Int) else (valueIn 10 ds : Int)

/-- The exponent of a number: nothing, or a mark and a whole number. -/
def readExponent? : List Char → Option Int
  | [] => some 0
  | _ :: cs =>
    let (negative, body) := takeSign cs
    (readGrouped? Char.isDigit body).map fun ds =>
      if negative then -(valueIn 10 ds : Int) else (valueIn 10 ds : Int)

/-- The marks in front of an exponent. -/
def isExponentMark (c : Char) : Bool := c == 'e' || c == 'E'

/-- A number with a fraction, an exponent or both: whether a double can hold it. -/
def readFloat? (cs : List Char) : Option Bool := do
  let body := (takeSign cs).2
  if body = "inf".toList || body = "nan".toList then return true
  let number := body.takeWhile (!isExponentMark ·)
  let exponent ← readExponent? (body.dropWhile (!isExponentMark ·))
  let whole ← readPlainDigits? (number.takeWhile (· != '.'))
  let fraction ← match number.dropWhile (· != '.') with
    | [] => some []
    | _ :: rest => readGrouped? Char.isDigit rest
  if body = number && fraction = [] then none
  return !Text.exceedsDouble (valueIn 10 (whole ++ fraction)) (exponent - fraction.length)

/-! ### Dates and times -/

/-- The number of days in a month. -/
def daysIn (year month : Nat) : Nat :=
  if month = 2 then
    if year % 4 = 0 && (year % 100 != 0 || year % 400 = 0) then 29 else 28
  else if month = 4 || month = 6 || month = 9 || month = 11 then 30
  else 31

/-- Whether a text is a date. -/
def isDate : List Char → Bool
  | [y₁, y₂, y₃, y₄, '-', m₁, m₂, '-', d₁, d₂] =>
    let year := valueIn 10 [y₁, y₂, y₃, y₄]
    let month := valueIn 10 [m₁, m₂]
    let day := valueIn 10 [d₁, d₂]
    [y₁, y₂, y₃, y₄, m₁, m₂, d₁, d₂].all Char.isDigit && 1 ≤ month && month ≤ 12 && 1 ≤ day
      && day ≤ daysIn year month
  | _ => false

/-- The text after hours and minutes, if it begins with them. -/
def afterMinutes? : List Char → Option (List Char)
  | h₁ :: h₂ :: ':' :: m₁ :: m₂ :: rest =>
    if [h₁, h₂, m₁, m₂].all Char.isDigit && valueIn 10 [h₁, h₂] ≤ 23 && valueIn 10 [m₁, m₂] ≤ 59 then
      some rest
    else none
  | _ => none

/-- The text after a fraction of a second, or the whole text if none is there. -/
def afterFraction? : List Char → Option (List Char)
  | '.' :: c :: rest => if c.isDigit then some (rest.dropWhile Char.isDigit) else none
  | ['.'] => none
  | cs => some cs

/-- The text after a time, if it begins with one. The seconds may be left out. -/
def afterTime? (cs : List Char) : Option (List Char) := do
  match ← afterMinutes? cs with
  | ':' :: s₁ :: s₂ :: rest =>
    if s₁.isDigit && s₂.isDigit && valueIn 10 [s₁, s₂] ≤ 60 then afterFraction? rest else none
  | rest => return rest

/-- Whether a text is the distance of a time zone from universal time. -/
def isOffset : List Char → Bool
  | ['Z'] | ['z'] => true
  | '+' :: cs | '-' :: cs => afterMinutes? cs = some []
  | _ => false

/-- Whether a character separates a date from a time. -/
def isTimeMark (c : Char) : Bool := c == 'T' || c == 't' || c == ' '

/-- Whether a text is a date, a time, or both. -/
def isMoment (cs : List Char) : Bool :=
  isDate cs || afterTime? cs = some [] ||
    (isDate (cs.take 10) &&
      match cs.drop 10 with
      | mark :: time =>
        isTimeMark mark &&
          match afterTime? time with
          | some [] => true
          | some rest => isOffset rest
          | none => false
      | [] => false)

/-! ### Any unquoted value -/

/-- The characters that unquoted values are made of. -/
def isScalarChar (c : Char) : Bool :=
  c.isAlphanum || c == '+' || c == '-' || c == '_' || c == '.' || c == ':'

/-- The value that a text without quotes and brackets stands for. -/
def readScalar? (cs : List Char) : Option Value :=
  if cs = "true".toList then some (.boolean true)
  else if cs = "false".toList then some (.boolean false)
  else
    match readInteger? cs with
    | some n => some (.integer n)
    | none =>
      match readFloat? cs with
      | some inRange => some (.float inRange)
      | none => if isMoment cs then some .moment else none

/-- The characters of an unquoted value at the front of a text, and the text after them. A space may
stand between a date and its time. -/
def takeScalar (cs : List Char) : List Char × List Char :=
  let word := cs.takeWhile isScalarChar
  let rest := cs.dropWhile isScalarChar
  match rest with
  | ' ' :: c :: more =>
    if isDate word && c.isDigit then
      (word ++ ' ' :: (c :: more).takeWhile isScalarChar, (c :: more).dropWhile isScalarChar)
    else (word, rest)
  | _ => (word, rest)

example : readInteger? "1_000".toList = some 1000 := by decide +kernel
example : readInteger? "0x1F".toList = some 31 := by decide +kernel
example : readInteger? "007".toList = none := by decide +kernel
example : readFloat? "1.5e3".toList = some true := by decide +kernel
example : readFloat? "1.".toList = none := by decide +kernel
example : isMoment "1979-05-27T07:32:00Z".toList = true := by decide +kernel
example : isMoment "1979-02-29".toList = false := by decide +kernel

end Toml
end EfsControl
