/-
# Durations

A span of time is a number of nanoseconds. It is shown in the largest of
seconds, milliseconds, microseconds and nanoseconds of which it holds at
least one, with as many decimals as it needs.

Key definitions: `Duration`, `Duration.text`.
-/
import EfsControl.Text.Blank
import EfsControl.Text.Decimal

namespace EfsControl

/-- A span of time. -/
structure Duration where
  nanos : Nat
  deriving DecidableEq, Repr

namespace Duration

instance : LT Duration := ⟨fun a b => a.nanos < b.nanos⟩

instance (a b : Duration) : Decidable (a < b) := inferInstanceAs (Decidable (a.nanos < b.nanos))

/-- Whole seconds. -/
def ofSecs (n : Nat) : Duration := ⟨n * 1000000000⟩

/-- Whole milliseconds. -/
def ofMillis (n : Nat) : Duration := ⟨n * 1000000⟩

/-- The whole milliseconds in the span. -/
def millis (d : Duration) : Nat := d.nanos / 1000000

/-- `n` in units of ten to the power `places`, without zeros at the end of the fraction. -/
def decimalText (n places : Nat) : List Char :=
  let fraction := Text.digits (n % Nat.pow 10 places)
  let padded := List.replicate (places - fraction.length) '0' ++ fraction
  Text.digits (n / Nat.pow 10 places) ++
    match Text.dropEndWhile (· == '0') padded with
    | [] => []
    | ds => '.' :: ds

/-- The span in its largest unit. -/
def text (d : Duration) : String :=
  if 1000000000 ≤ d.nanos then String.ofList (decimalText d.nanos 9) ++ "s"
  else if 1000000 ≤ d.nanos then String.ofList (decimalText d.nanos 6) ++ "ms"
  else if 1000 ≤ d.nanos then String.ofList (decimalText d.nanos 3) ++ "µs"
  else String.ofList (decimalText d.nanos 0) ++ "ns"

example : (⟨999999999⟩ : Duration).text = "999.999999ms" := by decide +kernel
example : (⟨1500⟩ : Duration).text = "1.5µs" := by decide +kernel
example : (ofSecs 30).text = "30s" := by decide +kernel
example : (⟨0⟩ : Duration).text = "0ns" := by decide +kernel

end Duration
end EfsControl
