/-
# JSON texts come back

A character of a text can be spelled in several ways: as itself, by a letter
after a backslash, by its number, and above U+FFFF by two numbers. However a
text is spelled, it is read as what it is, up to the quote that ends it. A text
that is only read over may have numbers that give no character; whatever can be
read can also be read over.

Key definitions: `HexNumber`, `Spells`, `IsText`.
Key theorems: `Spells.read`, `spells_escaped`, `IsText.skip`,
`skipText_of_readText`.
-/
import EfsControl.Json.Text
import Mathlib.Tactic.Common

namespace EfsControl
namespace Json

/-- What has been read is what was read before it was changed. -/
theorem ok_of_map {α β : Type} {x : Except Fault α} {f : α → β} {b : β} (h : x.map f = .ok b) :
    ∃ a, x = .ok a ∧ f a = b := by
  cases x with
  | error e => cases h
  | ok a => exact ⟨a, rfl, Except.ok.inj h⟩

/-! ### Four hexadecimal digits -/

/-- Four hexadecimal digits and their number. -/
inductive HexNumber : List Char → Nat → Prop
  | mk {w x y z : Char} {a b c d : Nat} (hw : hexValue? w = some a) (hx : hexValue? x = some b)
    (hy : hexValue? y = some c) (hz : hexValue? z = some d) :
    HexNumber [w, x, y, z] (((a * 16 + b) * 16 + c) * 16 + d)

/-- Four digits are read as their number, whatever follows them. -/
theorem HexNumber.read {cs : List Char} {n : Nat} (h : HexNumber cs n) (more : List Char) :
    readHex (cs ++ more) = .ok (n, more) := by
  obtain @⟨w, x, y, z, a, b, c, d, hw, hx, hy, hz⟩ := h
  have hbytes : ¬ (Utf8.encode [w, x, y, z]).length < 4 := by
    have hpos (c : Char) : 0 < (String.utf8EncodeChar c).length := by
      rw [String.length_utf8EncodeChar]
      exact c.utf8Size_pos
    have := hpos w
    have := hpos x
    have := hpos y
    have := hpos z
    simp only [Utf8.encode, List.flatMap_cons, List.flatMap_nil, List.length_append]
    omega
  have htake : ([w, x, y, z] ++ more).take 4 = [w, x, y, z] := rfl
  rw [readHex, htake, if_neg hbytes]
  simp [hw, hx, hy, hz]

/-- A hexadecimal digit has its value. -/
theorem hexValue?_digitChar {n : Nat} (h : n < 16) : hexValue? (Nat.digitChar n) = some n := by
  have hall : ∀ k : Fin 16, hexValue? (Nat.digitChar k) = some k.val := by decide
  exact hall ⟨n, h⟩

/-- Two zeros and a pair of digits have the number of the pair. -/
theorem hexNumber_hexPair {n : Nat} (h : n < 256) : HexNumber ('0' :: '0' :: hexPair n) n := by
  have hzero : hexValue? '0' = some 0 := by decide
  have hsum : ((0 * 16 + 0) * 16 + n / 16 % 16) * 16 + n % 16 = n := by omega
  have hpair := HexNumber.mk hzero hzero (hexValue?_digitChar (n := n / 16 % 16) (by omega))
    (hexValue?_digitChar (n := n % 16) (by omega))
  rwa [hsum] at hpair

/-! ### Texts that are read -/

/-- What stands between the quotes, and the characters that it spells. -/
inductive Spells : List Char → List Char → Prop
  | nil : Spells [] []
  | plain {c : Char} {t s : List Char} (hq : c ≠ '"') (hb : c ≠ '\\') (hc : ¬ c.toNat < 0x20)
    (h : Spells t s) : Spells (c :: t) (c :: s)
  | letter {l c : Char} {t s : List Char} (hl : readLetter? l = some c) (h : Spells t s) :
    Spells ('\\' :: l :: t) (c :: s)
  | code {x t s : List Char} {n : Nat} (hx : HexNumber x n) (hl : isLowSurrogate n = false)
    (hh : isHighSurrogate n = false) (h : Spells t s) :
    Spells ('\\' :: 'u' :: (x ++ t)) (Char.ofNat n :: s)
  | pair {x y t s : List Char} {m n : Nat} (hx : HexNumber x m) (hm : isHighSurrogate m = true)
    (hy : HexNumber y n) (hn : isLowSurrogate n = true) (h : Spells t s) :
    Spells ('\\' :: 'u' :: (x ++ '\\' :: 'u' :: (y ++ t)))
      (Char.ofNat (0x10000 + (m - 0xD800) * 0x400 + (n - 0xDC00)) :: s)

/-- A code unit is not both halves of a pair. -/
theorem not_low_of_high {n : Nat} (h : isHighSurrogate n = true) : isLowSurrogate n = false := by
  simp only [isHighSurrogate, isLowSurrogate, Bool.and_eq_true, decide_eq_true_eq,
    Bool.and_eq_false_iff, decide_eq_false_iff_not] at h ⊢
  omega

/-- A letter that stands for a character is not the one in front of a number. -/
theorem ne_u_of_letter {l : Char} (h : (readLetter? l).isSome = true) : l ≠ 'u' := by
  rintro rfl
  exact absurd h (by decide)

/-- An escape is read as its character. -/
theorem readText_escape {c : Char} {cs more : List Char} (h : readEscape cs = .ok (c, more)) :
    readText ('\\' :: cs) = (readText more).map fun (s, rest) => (c :: s, rest) := by
  rw [readText, if_neg (by decide), if_pos rfl]
  split
  · rename_i he
    rw [he] at h
    cases h
  · rename_i he
    rw [h] at he
    cases he
    rfl

/-- A text is read as what it spells, up to the quote that ends it. -/
theorem Spells.read {t s : List Char} (h : Spells t s) (rest : List Char) :
    readText (t ++ '"' :: rest) = .ok (s, rest) := by
  induction h with
  | nil => rw [List.nil_append, readText, if_pos rfl]
  | plain hq hb hc _ ih =>
    rw [List.cons_append, readText, if_neg hq, if_neg hb, if_neg hc, ih]
    rfl
  | @letter l c t s hl _ ih =>
    have hread : readEscape (l :: (t ++ '"' :: rest)) = .ok (c, t ++ '"' :: rest) := by
      rw [readEscape, if_neg (ne_u_of_letter (by rw [hl]; rfl)), hl]
    rw [List.cons_append, List.cons_append, readText_escape hread, ih]
    rfl
  | @code x t s n hx hl hh _ ih =>
    have hread : readEscape ('u' :: (x ++ (t ++ '"' :: rest))) =
        .ok (Char.ofNat n, t ++ '"' :: rest) := by
      rw [readEscape, if_pos rfl, hx.read]
      simp only [readUnits, hl, hh, Bool.false_eq_true, if_false]
    rw [List.cons_append, List.cons_append, List.append_assoc, readText_escape hread, ih]
    rfl
  | @pair x y t s m n hx hm hy hn _ ih =>
    have hread : readEscape ('u' :: (x ++ '\\' :: 'u' :: (y ++ (t ++ '"' :: rest)))) =
        .ok (Char.ofNat (0x10000 + (m - 0xD800) * 0x400 + (n - 0xDC00)), t ++ '"' :: rest) := by
      rw [readEscape, if_pos rfl, hx.read]
      simp only [readUnits, not_low_of_high hm, hm, hy.read, hn, Bool.false_eq_true, if_false,
        if_true]
    simp only [List.cons_append, List.append_assoc]
    rw [readText_escape hread, ih]
    rfl

/-- The written form of a character spells it. -/
theorem Spells.escapeChar (c : Char) {t s : List Char} (h : Spells t s) :
    Spells (Json.escapeChar c ++ t) (c :: s) := by
  unfold Json.escapeChar
  split_ifs with hquote hback hb ht hn hf hr hcontrol
  · exact .letter (by rw [hquote]; rfl) h
  · exact .letter (by rw [hback]; rfl) h
  · exact .letter (by rw [hb]; rfl) h
  · exact .letter (by rw [ht]; rfl) h
  · exact .letter (by rw [hn]; rfl) h
  · exact .letter (by rw [hf]; rfl) h
  · exact .letter (by rw [hr]; rfl) h
  · have hlow : isLowSurrogate c.toNat = false := by
      simp [isLowSurrogate]
      omega
    have hhigh : isHighSurrogate c.toNat = false := by
      simp [isHighSurrogate]
      omega
    have hcode := Spells.code (hexNumber_hexPair (by omega)) hlow hhigh h
    rwa [Char.ofNat_toNat] at hcode
  · exact .plain hquote hback hcontrol h

/-- The written form of a text spells it. -/
theorem spells_escaped (cs : List Char) : Spells (cs.flatMap escapeChar) cs := by
  induction cs with
  | nil => exact .nil
  | cons c cs ih => exact ih.escapeChar c

theorem writeText_append (cs rest : List Char) :
    writeText cs ++ rest = '"' :: (cs.flatMap escapeChar ++ '"' :: rest) := by
  rw [writeText, List.cons_append, List.cons_append, List.append_assoc, List.singleton_append]

/-! ### Texts that are read over -/

/-- What may stand between the quotes. The numbers need not be those of characters. -/
inductive IsText : List Char → Prop
  | nil : IsText []
  | plain {c : Char} {t : List Char} (hq : c ≠ '"') (hb : c ≠ '\\') (hc : ¬ c.toNat < 0x20)
    (h : IsText t) : IsText (c :: t)
  | letter {l : Char} {t : List Char} (hl : (readLetter? l).isSome = true) (h : IsText t) :
    IsText ('\\' :: l :: t)
  | code {x t : List Char} {n : Nat} (hx : HexNumber x n) (h : IsText t) :
    IsText ('\\' :: 'u' :: (x ++ t))

theorem Spells.isText {t s : List Char} (h : Spells t s) : IsText t := by
  induction h with
  | nil => exact .nil
  | plain hq hb hc _ ih => exact .plain hq hb hc ih
  | letter hl _ ih => exact .letter (by rw [hl]; rfl) ih
  | code hx _ _ _ ih => exact .code hx ih
  | pair hx _ hy _ _ ih => exact .code hx (.code hy ih)

/-- An escape is read over. -/
theorem skipText_escape {cs more : List Char} (h : skipEscape cs = .ok more) :
    skipText ('\\' :: cs) = skipText more := by
  rw [skipText, if_neg (by decide), if_pos rfl]
  split
  · rename_i he
    rw [he] at h
    cases h
  · rename_i he
    rw [h] at he
    cases he
    rfl

/-- A text is read over up to the quote that ends it. -/
theorem IsText.skip {t : List Char} (h : IsText t) (rest : List Char) :
    skipText (t ++ '"' :: rest) = .ok rest := by
  induction h with
  | nil => rw [List.nil_append, skipText, if_pos rfl]
  | plain hq hb hc _ ih => rw [List.cons_append, skipText, if_neg hq, if_neg hb, if_neg hc, ih]
  | @letter l t hl _ ih =>
    have hskip : skipEscape (l :: (t ++ '"' :: rest)) = .ok (t ++ '"' :: rest) := by
      rw [skipEscape, if_neg (ne_u_of_letter hl), if_pos hl]
    rw [List.cons_append, List.cons_append, skipText_escape hskip, ih]
  | @code x t n hx _ ih =>
    have hskip : skipEscape ('u' :: (x ++ (t ++ '"' :: rest))) = .ok (t ++ '"' :: rest) := by
      rw [skipEscape, if_pos rfl, hx.read]
    rw [List.cons_append, List.cons_append, List.append_assoc, skipText_escape hskip, ih]

/-- An escape that is read is read over; the second half of a pair is an escape of its own. -/
theorem skipText_of_readEscape {cs rest : List Char} {c : Char}
    (h : readEscape cs = .ok (c, rest)) : skipText ('\\' :: cs) = skipText rest := by
  cases cs with
  | nil => cases h
  | cons l cs =>
    rw [readEscape] at h
    split at h
    · rename_i hu
      split at h
      · cases h
      · rename_i n more hn
        have hfirst : skipEscape (l :: cs) = .ok more := by rw [skipEscape, if_pos hu, hn]
        rw [skipText_escape hfirst]
        unfold readUnits at h
        split at h
        · cases h
        · split at h
          · split at h
            · cases h
            · cases h
            · split at h
              · cases h
              · rename_i more' _ m rest' hm
                split at h
                · obtain ⟨-, rfl⟩ := Prod.mk.inj (Except.ok.inj h)
                  have hsecond : skipEscape ('u' :: more') = .ok rest' := by
                    rw [skipEscape, if_pos rfl, hm]
                  exact skipText_escape hsecond
                · cases h
            · cases h
          · cases h
            rfl
    · rename_i hu
      split at h
      · rename_i d hd
        cases h
        exact skipText_escape (by rw [skipEscape, if_neg hu, if_pos (by rw [hd]; rfl)])
      · cases h

/-- What can be read can be read over. -/
theorem skipText_of_readText {cs s rest : List Char} (h : readText cs = .ok (s, rest)) :
    skipText cs = .ok rest := by
  induction cs using readText.induct generalizing s with
  | case1 => simp [readText] at h
  | case2 cs =>
    rw [readText, if_pos rfl] at h
    cases h
    rw [skipText, if_pos rfl]
  | case3 cs f he =>
    rw [readText, if_neg (by decide), if_pos rfl] at h
    split at h
    · cases h
    · rename_i he'
      cases he.symm.trans he'
  | case4 cs d more he hlt _ ih =>
    rw [readText_escape he] at h
    obtain ⟨x, hread, hx⟩ := ok_of_map h
    cases hx
    rw [skipText_of_readEscape he, ih hread]
  | case5 c cs hq hb hc =>
    rw [readText, if_neg hq, if_neg hb, if_pos hc] at h
    cases h
  | case6 c cs hq hb hc ih =>
    rw [readText, if_neg hq, if_neg hb, if_neg hc] at h
    obtain ⟨x, hread, hx⟩ := ok_of_map h
    cases hx
    rw [skipText, if_neg hq, if_neg hb, if_neg hc, ih hread]

/-- Where all bytes are text, every text is read. -/
@[simp] theorem readUnmarked_nil : readUnmarked [] = readText := by
  funext cs
  rw [readUnmarked]
  cases readText cs <;> rfl

end Json
end EfsControl
