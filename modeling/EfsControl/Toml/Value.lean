/-
# Configuration values

A value is a text, a number, a truth value, a date or time, an array or a
table. A table remembers how it came about, because that decides whether it
may still grow. Only whole numbers are kept exactly: no setting is a fraction
or a date.

Key definitions: `Toml.Value`, `Toml.TableKind`, `lookup`, `representable`.
-/
namespace EfsControl
namespace Toml

/-- How a table came about. -/
inductive TableKind
  /-- It has a header of its own, or is the whole document. -/
  | headed
  /-- It stands in the path of a header further down. -/
  | implied
  /-- It stands in the path of a dotted key. -/
  | dotted
  /-- It is written between braces. -/
  | braced
  deriving DecidableEq, Repr

/-- A value of a configuration text. -/
inductive Value
  | text (s : List Char)
  | integer (n : Int)
  /-- A number with a fraction or an exponent, or one of the special ones. -/
  | float (inRange : Bool)
  | boolean (b : Bool)
  /-- A date, a time, or both. -/
  | moment
  /-- An array, and whether it grows by double-bracketed headers. -/
  | array (byHeader : Bool) (items : List Value)
  | table (kind : TableKind) (entries : List (List Char × Value))

/-- The entries of a table, in the order in which they were written. -/
abbrev Entries := List (List Char × Value)

/-- The value of a key. -/
def lookup (key : List Char) : Entries → Option Value
  | [] => none
  | (k, v) :: rest => if k = key then some v else lookup key rest

/-- The entries with another value for a key that is there. -/
def replace (key : List Char) (v : Value) (entries : Entries) : Entries :=
  entries.map fun (k, w) => if k = key then (k, v) else (k, w)

/-- The least whole number that a value can be. -/
def leastInteger : Int := Int.negOfNat (Nat.pow 2 127)

/-- The greatest whole number that a value can be. -/
def greatestInteger : Int := Int.ofNat (Nat.pow 2 128 - 1)

mutual

/-- Whether every number in a value is within what a number can be. -/
def representable : Value → Bool
  | .integer n => leastInteger ≤ n && n ≤ greatestInteger
  | .float inRange => inRange
  | .array _ items => representableItems items
  | .table _ entries => representableEntries entries
  | _ => true

/-- Whether every number in a list of values is within what a number can be. -/
def representableItems : List Value → Bool
  | [] => true
  | v :: vs => representable v && representableItems vs

/-- Whether every number in the entries is within what a number can be. -/
def representableEntries : List (List Char × Value) → Bool
  | [] => true
  | (_, v) :: es => representable v && representableEntries es

end

end Toml
end EfsControl
