/-
# UTF-8

Texts as bytes and back. A byte list need not be UTF-8: `decode?` refuses one
that is not, and `decodeLossy` puts the replacement character U+FFFD for each
longest run of bytes that begins a character and is then broken off (one byte
where none can begin). `decodeMarked` tells where such bytes are.

Key definitions: `encode`, `scan`, `decodeLossy`, `decode?`, `decodeMarked`.
Key theorem: `scan_length_le`.
-/
namespace EfsControl
namespace Utf8

/-- The bytes of a text. -/
def encode (cs : List Char) : List UInt8 := cs.flatMap String.utf8EncodeChar

/-- The bytes of a string. -/
def ofString (s : String) : List UInt8 := encode s.toList

/-- The bytes that may follow the first byte `b` of a character of more than one byte. -/
def secondRange (b : UInt8) : UInt8 × UInt8 :=
  if b == 0xE0 then (0xA0, 0xBF)
  else if b == 0xED then (0x80, 0x9F)
  else if b == 0xF0 then (0x90, 0xBF)
  else if b == 0xF4 then (0x80, 0x8F)
  else (0x80, 0xBF)

/-- How many bytes follow the first byte `b` of a character, if one may begin with it. -/
def tailLength? (b : UInt8) : Option Nat :=
  if b < 0x80 then some 0
  else if 0xC2 ≤ b && b ≤ 0xDF then some 1
  else if 0xE0 ≤ b && b ≤ 0xEF then some 2
  else if 0xF0 ≤ b && b ≤ 0xF4 then some 3
  else none

/-- The bits that the first byte of a character with `n` further bytes gives. -/
def leadBits (n : Nat) (b : UInt8) : Nat :=
  match n with
  | 0 => b.toNat
  | 1 => b.toNat % 0x20
  | 2 => b.toNat % 0x10
  | _ => b.toNat % 0x08

/-- `n` bytes from the front, the first between the bounds and the others between `80` and `BF`,
added to the bits read so far; and the bytes after them, or after as many as fit. -/
def scanTail : Nat → UInt8 × UInt8 → Nat → List UInt8 → Option Char × List UInt8
  | 0, _, acc, bs => (some (Char.ofNat acc), bs)
  | _ + 1, _, _, [] => (none, [])
  | n + 1, (lo, hi), acc, b :: bs =>
    if lo ≤ b && b ≤ hi then scanTail n (0x80, 0xBF) (acc * 64 + b.toNat % 64) bs
    else (none, b :: bs)

/-- The character that `b` begins, if it is complete, and the bytes after it. -/
def scan (b : UInt8) (bs : List UInt8) : Option Char × List UInt8 :=
  match tailLength? b with
  | none => (none, bs)
  | some n => scanTail n (secondRange b) (leadBits n b) bs

theorem scanTail_length_le (n : Nat) (r : UInt8 × UInt8) (acc : Nat) (bs : List UInt8) :
    (scanTail n r acc bs).2.length ≤ bs.length := by
  induction n generalizing r acc bs with
  | zero => simp [scanTail]
  | succ n ih =>
    cases bs with
    | nil => simp [scanTail]
    | cons b bs =>
      unfold scanTail
      split
      · exact Nat.le_succ_of_le (ih _ _ _)
      · exact Nat.le_refl _

/-- What follows a character is no longer than what followed its first byte. -/
theorem scan_length_le (b : UInt8) (bs : List UInt8) : (scan b bs).2.length ≤ bs.length := by
  unfold scan
  split
  · exact Nat.le_refl _
  · exact scanTail_length_le _ _ _ _

/-- The text of any bytes, with U+FFFD where they are no UTF-8. -/
def decodeLossy : List UInt8 → List Char
  | [] => []
  | b :: bs => (scan b bs).1.getD '\ufffd' :: decodeLossy (scan b bs).2
termination_by bs => bs.length
decreasing_by exact Nat.lt_succ_of_le (scan_length_le b bs)

/-- The text of bytes that are UTF-8. -/
def decode? : List UInt8 → Option (List Char)
  | [] => some []
  | b :: bs =>
    match (scan b bs).1 with
    | none => none
    | some c => (decode? (scan b bs).2).map (c :: ·)
termination_by bs => bs.length
decreasing_by exact Nat.lt_succ_of_le (scan_length_le b bs)

/-- The text of any bytes, with U+007F for each byte that belongs to no character; and the places of
these, each by how many characters follow it. -/
def decodeMarked : List UInt8 → List Char × List Nat
  | [] => ([], [])
  | b :: bs =>
    match (scan b bs).1 with
    | some c =>
      let (cs, marks) := decodeMarked (scan b bs).2
      (c :: cs, marks)
    | none =>
      let (cs, marks) := decodeMarked bs
      ('\x7f' :: cs, cs.length :: marks)
termination_by bs => bs.length
decreasing_by
  · exact Nat.lt_succ_of_le (scan_length_le b bs)
  · exact Nat.lt_succ_self _

end Utf8
end EfsControl
