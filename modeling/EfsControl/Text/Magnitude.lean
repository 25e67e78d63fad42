/-
# Numbers beyond the doubles

A decimal number is too large when the nearest double is infinite: from half
a unit in the last place above the largest double on.

Key definitions: `doubleLimit`, `exceedsDouble`.
-/
import EfsControl.Text.Decimal

namespace EfsControl
namespace Text

/-- The least number that does not round to a finite double. -/
def doubleLimit : Nat := Nat.pow 2 1024 - Nat.pow 2 970

/-- Whether `mantissa` times ten to the power `exponent` is too large for a double. The number of
decimals settles all but the numbers near the limit. -/
def exceedsDouble (mantissa : Nat) (exponent : Int) : Bool :=
  let size := (digits mantissa).length + exponent
  if mantissa = 0 then false
  else if size < 300 then false
  else if 310 < size then true
  else if 0 ≤ exponent then doubleLimit ≤ mantissa * Nat.pow 10 exponent.toNat
  else doubleLimit * Nat.pow 10 (-exponent).toNat ≤ mantissa

example : exceedsDouble 1 309 = true := by decide +kernel
example : exceedsDouble 17976931348623157 292 = false := by decide +kernel
example : exceedsDouble 0 99999999999 = false := by decide +kernel

end Text
end EfsControl
