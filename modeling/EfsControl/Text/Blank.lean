/-
# Blank characters

The characters with the Unicode property `White_Space`, and what trimming
them off the ends of a text leaves. A command word holds none of them, and a
daemon's result is read without those around it.

Key definitions: `isBlank`, `dropEndWhile`, `trim`, `dropLineEnd`.
-/
namespace EfsControl
namespace Text

/-- The characters with the property `White_Space`. -/
def isBlank (c : Char) : Bool :=
  (0x09 ≤ c.toNat && c.toNat ≤ 0x0D) || c.toNat == 0x20 || c.toNat == 0x85 || c.toNat == 0xA0
    || c.toNat == 0x1680 || (0x2000 ≤ c.toNat && c.toNat ≤ 0x200A) || c.toNat == 0x2028
    || c.toNat == 0x2029 || c.toNat == 0x202F || c.toNat == 0x205F || c.toNat == 0x3000

/-- The list without the longest run at its end whose members satisfy `p`. -/
def dropEndWhile (p : α → Bool) : List α → List α
  | [] => []
  | a :: as =>
    match dropEndWhile p as with
    | [] => if p a then [] else [a]
    | b :: bs => a :: b :: bs

/-- The text without the blanks at both ends. -/
def trim (cs : List Char) : List Char := dropEndWhile isBlank (cs.dropWhile isBlank)

/-- A carriage return or a line feed. -/
def isLineEnd (c : Char) : Bool := c == '\r' || c == '\n'

/-- The text without the carriage returns and line feeds at its end. -/
def dropLineEnd (cs : List Char) : List Char := dropEndWhile isLineEnd cs

example : "\t\n\x0b\x0c\r \u0085\u00a0\u3000".toList.all isBlank = true := by decide
example : "\x1c\u180e\u200b\ufeff".toList.any isBlank = false := by decide

end Text
end EfsControl
