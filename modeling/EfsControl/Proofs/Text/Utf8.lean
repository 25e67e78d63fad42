/-
# Texts come back from their bytes

A character is one to four bytes, and the bytes are read as that character
whatever follows them, so a text is read from its bytes as it was. A byte
below 128 is a character of its own: it occurs among the bytes of a text as
often as its character occurs in the text.

Key theorems: `scan_encodeChar`, `decodeLossy_encode`, `decode?_encode`,
`decodeMarked_encode`, `count_encode`.
-/
import EfsControl.Text.Utf8
import Mathlib.Tactic.SplitIfs

namespace EfsControl
namespace Utf8

/-! ### One character -/

/-- A byte that continues a character adds its six bits. -/
theorem scanTail_continue {n acc x : Nat} {lo hi : UInt8} (bs : List UInt8) (hx : x < 64)
    (hlo : lo.toNat ≤ x + 128) (hhi : x + 128 ≤ hi.toNat) :
    scanTail (n + 1) (lo, hi) acc (UInt8.ofNat (x + 128) :: bs) =
      scanTail n (0x80, 0xBF) (acc * 64 + x) bs := by
  have hb : (UInt8.ofNat (x + 128)).toNat = x + 128 := by
    rw [UInt8.toNat_ofNat']
    omega
  have hmem :
      (decide (lo ≤ UInt8.ofNat (x + 128)) && decide (UInt8.ofNat (x + 128) ≤ hi)) = true := by
    simp only [UInt8.le_iff_toNat_le, hb, Bool.and_eq_true, decide_eq_true_eq]
    exact ⟨hlo, hhi⟩
  have hbits : (x + 128) % 64 = x := by omega
  rw [scanTail, if_pos hmem, hb, hbits]

/-- How many bytes follow a first byte, by its value. -/
theorem tailLength?_ofNat {x : Nat} (hx : x < 256) : tailLength? (UInt8.ofNat x) =
    if x < 0x80 then some 0 else if 0xC2 ≤ x ∧ x ≤ 0xDF then some 1
    else if 0xE0 ≤ x ∧ x ≤ 0xEF then some 2 else if 0xF0 ≤ x ∧ x ≤ 0xF4 then some 3 else none := by
  have hb : (UInt8.ofNat x).toNat = x := by
    rw [UInt8.toNat_ofNat']
    exact Nat.mod_eq_of_lt hx
  simp [tailLength?, UInt8.le_iff_toNat_le, UInt8.lt_iff_toNat_lt, hb]

/-- Which bytes may follow a first byte, by its value. -/
theorem secondRange_ofNat {x : Nat} (hx : x < 256) : secondRange (UInt8.ofNat x) =
    if x = 0xE0 then (0xA0, 0xBF) else if x = 0xED then (0x80, 0x9F)
    else if x = 0xF0 then (0x90, 0xBF) else if x = 0xF4 then (0x80, 0x8F) else (0x80, 0xBF) := by
  have hb : (UInt8.ofNat x).toNat = x := by
    rw [UInt8.toNat_ofNat']
    exact Nat.mod_eq_of_lt hx
  simp [secondRange, ← UInt8.toNat_inj, hb]

section
variable {v : Nat} (bs : List UInt8)

theorem scan_one (h : v ≤ 0x7F) : scan (UInt8.ofNat v) bs = (some (Char.ofNat v), bs) := by
  have hbits : v % 256 = v := by omega
  rw [scan, tailLength?_ofNat (by omega), if_pos (by omega)]
  simp only [leadBits, scanTail, UInt8.toNat_ofNat', hbits]

theorem scan_two (h : 0x7F < v) (h' : v ≤ 0x7FF) :
    scan (UInt8.ofNat (v / 64 % 32 + 192)) (UInt8.ofNat (v % 64 + 128) :: bs) =
      (some (Char.ofNat v), bs) := by
  have hbits : (v / 64 % 32 + 192) % 256 % 32 * 64 + v % 64 = v := by omega
  have hr := secondRange_ofNat (x := v / 64 % 32 + 192) (by omega)
  rw [if_neg (by omega), if_neg (by omega), if_neg (by omega), if_neg (by omega)] at hr
  rw [scan, tailLength?_ofNat (by omega), if_neg (by omega), if_pos (by omega), hr]
  dsimp only
  rw [scanTail_continue _ (by omega) (by simp) (by simp; omega)]
  simp only [leadBits, scanTail, UInt8.toNat_ofNat', hbits]

/-- Of three bytes the second leaves out the surrogates. -/
theorem scan_three (h : 0x7FF < v) (h' : v ≤ 0xFFFF) (hs : v < 0xD800 ∨ 0xDFFF < v) :
    scan (UInt8.ofNat (v / 4096 % 16 + 224))
        (UInt8.ofNat (v / 64 % 64 + 128) :: UInt8.ofNat (v % 64 + 128) :: bs) =
      (some (Char.ofNat v), bs) := by
  have hbits : ((v / 4096 % 16 + 224) % 256 % 16 * 64 + v / 64 % 64) * 64 + v % 64 = v := by omega
  have hr := secondRange_ofNat (x := v / 4096 % 16 + 224) (by omega)
  have hlo : (secondRange (UInt8.ofNat (v / 4096 % 16 + 224))).1.toNat ≤ v / 64 % 64 + 128 := by
    rw [hr]
    split_ifs <;> simp <;> omega
  have hhi : v / 64 % 64 + 128 ≤ (secondRange (UInt8.ofNat (v / 4096 % 16 + 224))).2.toNat := by
    rw [hr]
    split_ifs <;> simp <;> omega
  rw [scan, tailLength?_ofNat (by omega), if_neg (by omega), if_neg (by omega), if_pos (by omega)]
  dsimp only
  rw [scanTail_continue _ (by omega) hlo hhi,
    scanTail_continue _ (by omega) (by simp) (by simp; omega)]
  simp only [leadBits, scanTail, UInt8.toNat_ofNat', hbits]

theorem scan_four (h : 0xFFFF < v) (h' : v < 0x110000) :
    scan (UInt8.ofNat (v / 262144 % 8 + 240))
        (UInt8.ofNat (v / 4096 % 64 + 128) :: UInt8.ofNat (v / 64 % 64 + 128) ::
          UInt8.ofNat (v % 64 + 128) :: bs) =
      (some (Char.ofNat v), bs) := by
  have hbits : (((v / 262144 % 8 + 240) % 256 % 8 * 64 + v / 4096 % 64) * 64 + v / 64 % 64) * 64
      + v % 64 = v := by omega
  have hr := secondRange_ofNat (x := v / 262144 % 8 + 240) (by omega)
  have hlo : (secondRange (UInt8.ofNat (v / 262144 % 8 + 240))).1.toNat ≤ v / 4096 % 64 + 128 := by
    rw [hr]
    split_ifs <;> simp <;> omega
  have hhi : v / 4096 % 64 + 128 ≤ (secondRange (UInt8.ofNat (v / 262144 % 8 + 240))).2.toNat := by
    rw [hr]
    split_ifs <;> simp <;> omega
  rw [scan, tailLength?_ofNat (by omega), if_neg (by omega), if_neg (by omega), if_neg (by omega),
    if_pos (by omega)]
  dsimp only
  rw [scanTail_continue _ (by omega) hlo hhi,
    scanTail_continue _ (by omega) (by simp) (by simp; omega),
    scanTail_continue _ (by omega) (by simp) (by simp; omega)]
  simp only [leadBits, scanTail, UInt8.toNat_ofNat', hbits]

end

/-- The bytes of a character, by the size of its number. -/
theorem encodeChar_cases (c : Char) :
    (c.toNat ≤ 0x7F ∧ String.utf8EncodeChar c = [UInt8.ofNat c.toNat]) ∨
    (0x7F < c.toNat ∧ c.toNat ≤ 0x7FF ∧ String.utf8EncodeChar c =
      [UInt8.ofNat (c.toNat / 64 % 32 + 192), UInt8.ofNat (c.toNat % 64 + 128)]) ∨
    (0x7FF < c.toNat ∧ c.toNat ≤ 0xFFFF ∧ (c.toNat < 0xD800 ∨ 0xDFFF < c.toNat) ∧
      String.utf8EncodeChar c = [UInt8.ofNat (c.toNat / 4096 % 16 + 224),
        UInt8.ofNat (c.toNat / 64 % 64 + 128), UInt8.ofNat (c.toNat % 64 + 128)]) ∨
    (0xFFFF < c.toNat ∧ c.toNat < 0x110000 ∧ String.utf8EncodeChar c =
      [UInt8.ofNat (c.toNat / 262144 % 8 + 240), UInt8.ofNat (c.toNat / 4096 % 64 + 128),
        UInt8.ofNat (c.toNat / 64 % 64 + 128), UInt8.ofNat (c.toNat % 64 + 128)]) := by
  have hv : c.toNat < 0xD800 ∨ (0xDFFF < c.toNat ∧ c.toNat < 0x110000) := c.valid
  have he : String.utf8EncodeChar c = _ := String.utf8EncodeChar.eq_def c
  simp only [show c.val.toNat = c.toNat from rfl] at he
  split at he
  · exact .inl ⟨by assumption, he⟩
  split at he
  · exact .inr (.inl ⟨by omega, by assumption, he⟩)
  split at he
  · exact .inr (.inr (.inl ⟨by omega, by assumption, by omega, he⟩))
  · exact .inr (.inr (.inr ⟨by omega, by omega, he⟩))

/-- The bytes of a character are read as the character, whatever follows them. -/
theorem scan_encodeChar (c : Char) (bs : List UInt8) :
    ∃ b tail, String.utf8EncodeChar c = b :: tail ∧ scan b (tail ++ bs) = (some c, bs) := by
  rcases encodeChar_cases c with ⟨h, he⟩ | ⟨h, h', he⟩ | ⟨h, h', hs, he⟩ | ⟨h, h', he⟩
  · refine ⟨_, _, he, ?_⟩
    simpa only [Char.ofNat_toNat, List.cons_append, List.nil_append] using scan_one bs h
  · refine ⟨_, _, he, ?_⟩
    simpa only [Char.ofNat_toNat, List.cons_append, List.nil_append] using scan_two bs h h'
  · refine ⟨_, _, he, ?_⟩
    simpa only [Char.ofNat_toNat, List.cons_append, List.nil_append] using scan_three bs h h' hs
  · refine ⟨_, _, he, ?_⟩
    simpa only [Char.ofNat_toNat, List.cons_append, List.nil_append] using scan_four bs h h'

/-! ### Texts -/

theorem encode_cons (c : Char) (cs : List Char) :
    encode (c :: cs) = String.utf8EncodeChar c ++ encode cs := List.flatMap_cons

/-- A text is read from its bytes. -/
@[simp] theorem decodeLossy_encode (cs : List Char) : decodeLossy (encode cs) = cs := by
  induction cs with
  | nil => rw [encode, List.flatMap_nil, decodeLossy]
  | cons c cs ih =>
    obtain ⟨b, tail, hb, hs⟩ := scan_encodeChar c (encode cs)
    rw [encode_cons, hb, List.cons_append, decodeLossy, hs]
    exact congrArg (c :: ·) ih

/-- The bytes of a text are UTF-8. -/
@[simp] theorem decode?_encode (cs : List Char) : decode? (encode cs) = some cs := by
  induction cs with
  | nil => rw [encode, List.flatMap_nil, decode?]
  | cons c cs ih =>
    obtain ⟨b, tail, hb, hs⟩ := scan_encodeChar c (encode cs)
    rw [encode_cons, hb, List.cons_append, decode?, hs]
    simp [ih]

/-- The bytes of a text all belong to characters. -/
@[simp] theorem decodeMarked_encode (cs : List Char) : decodeMarked (encode cs) = (cs, []) := by
  induction cs with
  | nil => rw [encode, List.flatMap_nil, decodeMarked]
  | cons c cs ih =>
    obtain ⟨b, tail, hb, hs⟩ := scan_encodeChar c (encode cs)
    rw [encode_cons, hb, List.cons_append, decodeMarked, hs]
    simp [ih]

/-! ### Bytes below 128 -/

/-- A byte below 128 is in a character only where it is the whole of it. -/
theorem count_encodeChar {d : Char} (hd : d.toNat < 0x80) (c : Char) :
    (String.utf8EncodeChar c).count (UInt8.ofNat d.toNat) = if c = d then 1 else 0 := by
  have hne : ∀ x, 0x80 ≤ x → x < 256 → UInt8.ofNat x ≠ UInt8.ofNat d.toNat := fun x h h' he => by
    rw [← UInt8.toNat_inj, UInt8.toNat_ofNat', UInt8.toNat_ofNat'] at he
    omega
  have hcd : 0x7F < c.toNat → c ≠ d := fun h he => by
    rw [he] at h
    omega
  rcases encodeChar_cases c with ⟨h, he⟩ | ⟨h, h', he⟩ | ⟨h, h', -, he⟩ | ⟨h, h', he⟩
  · have hb : UInt8.ofNat c.toNat = UInt8.ofNat d.toNat ↔ c = d := by
      rw [← UInt8.toNat_inj, UInt8.toNat_ofNat', UInt8.toNat_ofNat', ← Char.toNat_inj]
      omega
    rw [he, List.count_singleton]
    simp only [beq_iff_eq, hb]
  · rw [he, if_neg (hcd h), List.count_cons_of_ne (hne _ (by omega) (by omega)),
      List.count_cons_of_ne (hne _ (by omega) (by omega)), List.count_nil]
  · rw [he, if_neg (hcd (by omega)), List.count_cons_of_ne (hne _ (by omega) (by omega)),
      List.count_cons_of_ne (hne _ (by omega) (by omega)),
      List.count_cons_of_ne (hne _ (by omega) (by omega)), List.count_nil]
  · rw [he, if_neg (hcd (by omega)), List.count_cons_of_ne (hne _ (by omega) (by omega)),
      List.count_cons_of_ne (hne _ (by omega) (by omega)),
      List.count_cons_of_ne (hne _ (by omega) (by omega)),
      List.count_cons_of_ne (hne _ (by omega) (by omega)), List.count_nil]

/-- A byte below 128 occurs in a text as often as its character. -/
theorem count_encode {d : Char} (hd : d.toNat < 0x80) (cs : List Char) :
    (encode cs).count (UInt8.ofNat d.toNat) = cs.count d := by
  induction cs with
  | nil => rfl
  | cons c cs ih =>
    rw [encode_cons, List.count_append, count_encodeChar hd, ih, List.count_cons, Nat.add_comm]
    simp only [beq_iff_eq]

end Utf8
end EfsControl
