/-
# Quoted texts come back

What stands between the marks of a text spells its characters one by one: a
character stands for itself, or an escape stands for it. Between three marks a
line feed may stand too, and at most two marks in a row. Whatever spells a text
is read as that text, and in each of the four forms the writer spells the text
that it is given, so a text is read back in whichever form it was written.

Key definitions: `Escapes`, `Plain`, `Spells`, `LongSpells`.
Key theorems: `Spells.readBasic`, `LongSpells.readLongBasic`,
`longSpells_escapeLong`, `readText?_writeText`.
-/
import EfsControl.Toml.Quoted
import Mathlib.Tactic.Common

namespace EfsControl
namespace Toml

/-! ### Escapes -/

/-- After a backslash this stands for the character, whatever follows. -/
def Escapes (e : List Char) (c : Char) : Prop := ∀ more, readEscape? (e ++ more) = some (c, more)

theorem escapes_letter {l c : Char} (h : readShortEscape? l = some c) : Escapes [l] c := by
  intro more
  have hnumeric : escapeDigits? l = none := by
    unfold escapeDigits?
    split <;> first | rfl | cases h
  rw [List.singleton_append, readEscape?, hnumeric, h]
  rfl

/-- Two zeros and a pair of digits stand for the character with the number of the pair. -/
theorem escapes_hexPair {n : Nat} (h : n < 128) :
    Escapes ('u' :: '0' :: '0' :: hexPair n) (Char.ofNat n) := by
  intro more
  have hall : ∀ k : Fin 128, readCodePoint? ('0' :: '0' :: hexPair k) = some (Char.ofNat k) := by
    decide +kernel
  have hcode : readCodePoint? ('0' :: '0' :: hexPair n) = some (Char.ofNat n) := hall ⟨n, h⟩
  have htake : (('0' :: '0' :: hexPair n) ++ more).take 4 = '0' :: '0' :: hexPair n := rfl
  have hdrop : (('0' :: '0' :: hexPair n) ++ more).drop 4 = more := rfl
  have hlength : ('0' :: '0' :: hexPair n).length = 4 := rfl
  have hnumeric : escapeDigits? 'u' = some 4 := rfl
  rw [List.cons_append, readEscape?, hnumeric]
  simp only [htake, hdrop, hlength, hcode, if_true, Option.map_some]

/-- An escape does not go on with the next line. -/
theorem skipContinuation?_of_escape {cs rest : List Char} {c : Char}
    (h : readEscape? cs = some (c, rest)) : skipContinuation? cs = none := by
  cases cs with
  | nil => rfl
  | cons l cs =>
    have hspace : isSpace l = false := by
      rw [Bool.eq_false_iff]
      intro hl
      simp only [isSpace, Bool.or_eq_true, beq_iff_eq] at hl
      rcases hl with rfl | rfl <;> cases h
    rw [skipContinuation?, List.dropWhile_cons_of_neg (by simp [hspace])]
    unfold takeLineEnd?
    split
    · rename_i heq
      split at heq
      · rename_i he
        cases (List.cons.inj he).1
        cases h
      · rename_i he
        cases (List.cons.inj he).1
        cases h
      · cases heq
    · rfl

/-- A character is written as itself where it may stand for itself, and else by an escape. -/
theorem escapeControl_cases (c : Char) :
    escapeControl c = [c] ∧ isTextChar c = true ∧ c ≠ '\\' ∨
      ∃ e, escapeControl c = '\\' :: e ∧ Escapes e c := by
  unfold escapeControl
  split_ifs with h₁ h₂ h₃ h₄ h₅ hcode
  · exact .inr ⟨_, rfl, h₁ ▸ escapes_letter (l := 'b') rfl⟩
  · exact .inr ⟨_, rfl, h₂ ▸ escapes_letter (l := 't') rfl⟩
  · exact .inr ⟨_, rfl, h₃ ▸ escapes_letter (l := 'f') rfl⟩
  · exact .inr ⟨_, rfl, h₄ ▸ escapes_letter (l := 'r') rfl⟩
  · exact .inr ⟨_, rfl, h₅ ▸ escapes_letter (l := '\\') rfl⟩
  · simp only [Bool.or_eq_true, decide_eq_true_eq] at hcode
    have hread := escapes_hexPair (n := c.toNat) (by omega)
    rw [Char.ofNat_toNat] at hread
    exact .inr ⟨_, rfl, hread⟩
  · simp only [Bool.or_eq_true, decide_eq_true_eq, not_or] at hcode
    have htext : isTextChar c = true := by simp [isTextChar, hcode.2]; omega
    exact .inl ⟨rfl, htext, h₅⟩

/-! ### Texts on one line -/

/-- The character stands for itself between these marks. -/
structure Plain (mark c : Char) : Prop where
  text : isTextChar c = true
  ne_mark : c ≠ mark
  /-- Only single quotes may have a backslash between them. -/
  ne_backslash : mark = '"' → c ≠ '\\'

theorem Plain.between_single {c : Char} (hc : isTextChar c = true) (hq : c ≠ '\'') :
    Plain '\'' c := ⟨hc, hq, fun h => absurd h (by decide)⟩

/-- What stands between two marks, and the characters that it spells. -/
inductive Spells (mark : Char) : List Char → List Char → Prop
  | nil : Spells mark [] []
  | plain {c : Char} {t s : List Char} (hc : Plain mark c) (h : Spells mark t s) :
    Spells mark (c :: t) (c :: s)
  | escape {c : Char} {e t s : List Char} (hm : mark = '"') (he : Escapes e c)
    (h : Spells mark t s) : Spells mark ('\\' :: (e ++ t)) (c :: s)

theorem readBasic_plain {c : Char} (hc : Plain '"' c) (cs : List Char) :
    readBasic (c :: cs) = (readBasic cs).map fun (s, more) => (c :: s, more) := by
  rw [readBasic, if_neg hc.ne_mark, if_neg (hc.ne_backslash rfl), if_pos hc.text]

theorem readBasic_escape {c : Char} {e : List Char} (he : Escapes e c) (cs : List Char) :
    readBasic ('\\' :: (e ++ cs)) = (readBasic cs).map fun (s, more) => (c :: s, more) := by
  rw [readBasic, if_neg (by decide), if_pos rfl]
  split
  · rename_i h
    cases (he cs).symm.trans h
  · rename_i h
    cases (he cs).symm.trans h
    rfl

/-- Between double quotes a text is read as what it spells. -/
theorem Spells.readBasic {t s : List Char} (h : Spells '"' t s) (rest : List Char) :
    readBasic (t ++ '"' :: rest) = some (s, rest) := by
  induction h with
  | nil => rw [List.nil_append, Toml.readBasic, if_pos rfl]
  | plain hc _ ih => rw [List.cons_append, readBasic_plain hc, ih, Option.map_some]
  | escape _ he _ ih =>
    rw [List.cons_append, List.append_assoc, readBasic_escape he, ih, Option.map_some]

/-- Between single quotes a text is read as what it spells. -/
theorem Spells.readLiteral {t s : List Char} (h : Spells '\'' t s) (rest : List Char) :
    readLiteral (t ++ '\'' :: rest) = some (s, rest) := by
  induction h with
  | nil => rw [List.nil_append, Toml.readLiteral, if_pos rfl]
  | plain hc _ ih =>
    rw [List.cons_append, Toml.readLiteral, if_neg hc.ne_mark, if_pos hc.text, ih, Option.map_some]
  | escape hm => cases hm

theorem spells_escapeBasic (cs : List Char) : Spells '"' (cs.flatMap escapeBasic) cs := by
  induction cs with
  | nil => exact .nil
  | cons c cs ih =>
    rw [List.flatMap_cons, escapeBasic]
    split_ifs with hquote hline
    · exact .escape rfl (hquote ▸ escapes_letter (l := '"') rfl) ih
    · exact .escape rfl (hline ▸ escapes_letter (l := 'n') rfl) ih
    · rcases escapeControl_cases c with ⟨he, htext, hback⟩ | ⟨e, he, hread⟩
      · rw [he]
        exact .plain ⟨htext, hquote, fun _ => hback⟩ ih
      · rw [he]
        exact .escape rfl hread ih

theorem spells_self {mark : Char} {cs : List Char} (h : ∀ c ∈ cs, Plain mark c) :
    Spells mark cs cs := by
  induction cs with
  | nil => exact .nil
  | cons c cs ih => exact .plain (h c (by simp)) (ih fun d hd => h d (by simp [hd]))

/-! ### Texts on several lines -/

/-- What stands between three marks and three marks, after some marks in a row, and the characters
that it spells. -/
inductive LongSpells (mark : Char) : (run : Nat) → List Char → List Char → Prop
  | nil {run : Nat} : LongSpells mark run [] []
  | mark {run : Nat} {t s : List Char} (hrun : run < 2) (h : LongSpells mark (run + 1) t s) :
    LongSpells mark run (mark :: t) (mark :: s)
  | lineFeed {run : Nat} {t s : List Char} (h : LongSpells mark 0 t s) :
    LongSpells mark run ('\n' :: t) ('\n' :: s)
  | plain {run : Nat} {c : Char} {t s : List Char} (hc : Plain mark c) (h : LongSpells mark 0 t s) :
    LongSpells mark run (c :: t) (c :: s)
  | escape {run : Nat} {c : Char} {e t s : List Char} (hm : mark = '"') (he : Escapes e c)
    (h : LongSpells mark 0 t s) : LongSpells mark run ('\\' :: (e ++ t)) (c :: s)

/-- The two marks. -/
def IsMark (mark : Char) : Prop := mark = '"' ∨ mark = '\''

theorem IsMark.text {mark : Char} (h : IsMark mark) : isTextChar mark = true := by
  rcases h with rfl | rfl <;> rfl

theorem IsMark.ne_lineFeed {mark : Char} (h : IsMark mark) : '\n' ≠ mark := by
  rcases h with rfl | rfl <;> decide

/-- A text that is spelled ends, goes on with a mark, or goes on with another character. -/
theorem LongSpells.front {mark : Char} {run : Nat} {t s : List Char} (hm : IsMark mark)
    (h : LongSpells mark run t s) :
    (t = [] ∧ s = []) ∨
      (∃ t' s', run < 2 ∧ t = mark :: t' ∧ s = mark :: s' ∧ LongSpells mark (run + 1) t' s') ∨
        ∃ c t', t = c :: t' ∧ c ≠ mark := by
  cases h with
  | nil => exact .inl ⟨rfl, rfl⟩
  | mark hrun h => exact .inr (.inl ⟨_, _, hrun, rfl, rfl, h⟩)
  | lineFeed => exact .inr (.inr ⟨_, _, rfl, hm.ne_lineFeed⟩)
  | plain hc => exact .inr (.inr ⟨_, _, rfl, hc.ne_mark⟩)
  | escape hq => exact .inr (.inr ⟨_, _, rfl, by rw [hq]; decide⟩)

/-- Up to two marks in front of the closing ones belong to the text. -/
theorem takeClosing?_replicate {mark : Char} {k : Nat} (hk : k < 3) {rest : List Char}
    (hr : rest.head? ≠ some mark) :
    takeClosing? mark (List.replicate k mark ++ mark :: mark :: mark :: rest) =
      some (List.replicate k mark, rest) := by
  match rest with
  | [] =>
    match k with
    | 0 | 1 | 2 => simp [takeClosing?, List.replicate_succ]
  | [d] =>
    have hd : d ≠ mark := fun h => hr (by rw [h]; rfl)
    match k with
    | 0 | 1 | 2 => simp [takeClosing?, List.replicate_succ, hd]
  | d :: e :: more =>
    have hd : d ≠ mark := fun h => hr (by rw [h]; rfl)
    match k with
    | 0 | 1 | 2 => simp [takeClosing?, List.replicate_succ, hd]

/-- Three marks that another character interrupts close nothing. -/
theorem takeClosing?_eq_none {mark c : Char} {k : Nat} (hk : k < 3) (hc : c ≠ mark)
    (cs : List Char) : takeClosing? mark (List.replicate k mark ++ c :: cs) = none := by
  match k, cs with
  | 0, [] | 0, [_] | 0, _ :: _ :: _ | 1, [] | 1, _ :: _ | 2, _ =>
    simp [takeClosing?, List.replicate_succ, hc]

/-- At a text that is spelled, the closing marks are found if only marks are left of it. -/
theorem LongSpells.takeClosing? {mark : Char} {run : Nat} {t s : List Char} (hm : IsMark mark)
    (h : LongSpells mark run t s) {rest : List Char} (hr : rest.head? ≠ some mark) :
    Toml.takeClosing? mark (t ++ mark :: mark :: mark :: rest) = some (s, rest) ∨
      Toml.takeClosing? mark (t ++ mark :: mark :: mark :: rest) = none := by
  -- No three marks in a row are left, so what decides is among the next three characters.
  rcases h.front hm with ⟨rfl, rfl⟩ | ⟨t₁, s₁, hrun, rfl, rfl, h₁⟩ | ⟨c, t₁, rfl, hc⟩
  · exact .inl (takeClosing?_replicate (k := 0) (by decide) hr)
  · rcases h₁.front hm with ⟨rfl, rfl⟩ | ⟨t₂, s₂, hrun₁, rfl, rfl, h₂⟩ | ⟨c, t₂, rfl, hc⟩
    · exact .inl (takeClosing?_replicate (k := 1) (by decide) hr)
    · rcases h₂.front hm with ⟨rfl, rfl⟩ | ⟨t₃, s₃, hrun₂, rfl, rfl, h₃⟩ | ⟨c, t₃, rfl, hc⟩
      · exact .inl (takeClosing?_replicate (k := 2) (by decide) hr)
      · omega
      · exact .inr (takeClosing?_eq_none (k := 2) (by decide) hc _)
    · exact .inr (takeClosing?_eq_none (k := 1) (by decide) hc _)
  · exact .inr (takeClosing?_eq_none (k := 0) (by decide) hc _)

theorem readLongBasic_closed {cs s rest : List Char} (h : takeClosing? '"' cs = some (s, rest)) :
    readLongBasic cs = some (s, rest) := by
  cases cs with
  | nil => cases h
  | cons c cs => rw [readLongBasic, h]

theorem readLongBasic_cons {c : Char} {cs : List Char} (hopen : takeClosing? '"' (c :: cs) = none)
    (hc : isTextChar c = true ∨ c = '\n') (hb : c ≠ '\\') :
    readLongBasic (c :: cs) = (readLongBasic cs).map fun (s, more) => (c :: s, more) := by
  have htext : (isTextChar c || c = '\n' || (c = '\r' && cs.head? = some '\n')) = true := by
    rcases hc with h | h <;> simp [h]
  rw [readLongBasic, hopen]
  simp only [if_neg hb, if_pos htext]

theorem readLongBasic_escape {c : Char} {e : List Char} (he : Escapes e c) (cs : List Char) :
    readLongBasic ('\\' :: (e ++ cs)) = (readLongBasic cs).map fun (s, more) => (c :: s, more) := by
  have hopen : takeClosing? '"' ('\\' :: (e ++ cs)) = none :=
    takeClosing?_eq_none (k := 0) (by decide) (by decide) _
  rw [readLongBasic, hopen]
  simp only [if_true]
  split
  · rename_i h
    cases (skipContinuation?_of_escape (he cs)).symm.trans h
  · split
    · rename_i h
      cases (he cs).symm.trans h
    · rename_i h
      cases (he cs).symm.trans h
      rfl

/-- Between three double quotes a text is read as what it spells. -/
theorem LongSpells.readLongBasic {run : Nat} {t s : List Char} (h : LongSpells '"' run t s)
    {rest : List Char} (hr : rest.head? ≠ some '"') :
    readLongBasic (t ++ '"' :: '"' :: '"' :: rest) = some (s, rest) := by
  have hm : IsMark '"' := .inl rfl
  induction h with
  | nil => exact readLongBasic_closed (takeClosing?_replicate (k := 0) (by decide) hr)
  | mark hrun h ih =>
    -- Here the text may be over: then what is left of it is found together with the closing marks.
    rcases (LongSpells.mark hrun h).takeClosing? hm hr with hclosed | hopen
    · exact readLongBasic_closed hclosed
    · rw [List.cons_append] at hopen ⊢
      rw [readLongBasic_cons hopen (.inl rfl) (by decide), ih, Option.map_some]
  | lineFeed h ih =>
    have hopen := takeClosing?_eq_none (k := 0) (by decide) hm.ne_lineFeed
    rw [List.cons_append, readLongBasic_cons (hopen _) (.inr rfl) (by decide), ih, Option.map_some]
  | plain hc h ih =>
    have hopen := takeClosing?_eq_none (k := 0) (by decide) hc.ne_mark
    rw [List.cons_append, readLongBasic_cons (hopen _) (.inl hc.text) (hc.ne_backslash rfl), ih,
      Option.map_some]
  | escape _ he h ih =>
    rw [List.cons_append, List.append_assoc, readLongBasic_escape he, ih, Option.map_some]

theorem readLongLiteral_closed {cs s rest : List Char}
    (h : takeClosing? '\'' cs = some (s, rest)) : readLongLiteral cs = some (s, rest) := by
  cases cs with
  | nil => cases h
  | cons c cs => rw [readLongLiteral, h]

theorem readLongLiteral_cons {c : Char} {cs : List Char}
    (hopen : takeClosing? '\'' (c :: cs) = none) (hc : isTextChar c = true ∨ c = '\n') :
    readLongLiteral (c :: cs) = (readLongLiteral cs).map fun (s, more) => (c :: s, more) := by
  have htext : (isTextChar c || c = '\n' || (c = '\r' && cs.head? = some '\n')) = true := by
    rcases hc with h | h <;> simp [h]
  rw [readLongLiteral, hopen]
  simp only [if_pos htext]

/-- Between three single quotes a text is read as what it spells. -/
theorem LongSpells.readLongLiteral {run : Nat} {t s : List Char} (h : LongSpells '\'' run t s)
    {rest : List Char} (hr : rest.head? ≠ some '\'') :
    readLongLiteral (t ++ '\'' :: '\'' :: '\'' :: rest) = some (s, rest) := by
  have hm : IsMark '\'' := .inr rfl
  induction h with
  | nil => exact readLongLiteral_closed (takeClosing?_replicate (k := 0) (by decide) hr)
  | mark hrun h ih =>
    rcases (LongSpells.mark hrun h).takeClosing? hm hr with hclosed | hopen
    · exact readLongLiteral_closed hclosed
    · rw [List.cons_append] at hopen ⊢
      rw [readLongLiteral_cons hopen (.inl rfl), ih, Option.map_some]
  | lineFeed h ih =>
    have hopen := takeClosing?_eq_none (k := 0) (by decide) hm.ne_lineFeed
    rw [List.cons_append, readLongLiteral_cons (hopen _) (.inr rfl), ih, Option.map_some]
  | plain hc h ih =>
    have hopen := takeClosing?_eq_none (k := 0) (by decide) hc.ne_mark
    rw [List.cons_append, readLongLiteral_cons (hopen _) (.inl hc.text), ih, Option.map_some]
  | escape hq => cases hq

/-- With every third double quote in a row escaped, a text is spelled. -/
theorem longSpells_escapeLong (run : Nat) (cs : List Char) :
    LongSpells '"' run (escapeLong run cs) cs := by
  induction cs generalizing run with
  | nil => exact .nil
  | cons c cs ih =>
    rw [escapeLong]
    split_ifs with hquote hrun hline
    · rw [hquote]
      exact .mark hrun (ih (run + 1))
    · rw [hquote]
      exact .escape rfl (escapes_letter (l := '"') rfl) (ih 0)
    · rw [hline]
      exact .lineFeed (ih 0)
    · rcases escapeControl_cases c with ⟨he, htext, hback⟩ | ⟨e, he, hread⟩
      · rw [he]
        exact .plain ⟨htext, hquote, fun _ => hback⟩ (ih 0)
      · rw [he]
        exact .escape rfl hread (ih 0)

/-- The longest run of a mark and the run at hand, after another character. -/
def countRun (mark : Char) (counts : Nat × Nat) (c : Char) : Nat × Nat :=
  if c = mark then (max counts.1 (counts.2 + 1), counts.2 + 1) else (counts.1, 0)

theorem longestRun_eq (mark : Char) (cs : List Char) :
    longestRun mark cs = (cs.foldl (countRun mark) (0, 0)).1 := rfl

/-- The longest run does not get shorter. -/
theorem le_foldl_countRun (mark : Char) (cs : List Char) (counts : Nat × Nat) :
    counts.1 ≤ (cs.foldl (countRun mark) counts).1 := by
  induction cs generalizing counts with
  | nil => exact Nat.le_refl _
  | cons c cs ih =>
    have hstep : counts.1 ≤ (countRun mark counts c).1 := by
      rw [countRun]
      split_ifs
      · exact Nat.le_max_left ..
      · exact Nat.le_refl _
    exact Nat.le_trans hstep (ih _)

/-- A text without three marks in a row spells itself. -/
theorem longSpells_of_countRun {mark : Char} {cs : List Char} {best run : Nat}
    (hcs : ∀ c ∈ cs, c ≠ mark → c = '\n' ∨ Plain mark c)
    (h : (cs.foldl (countRun mark) (best, run)).1 ≤ 2) : LongSpells mark run cs cs := by
  induction cs generalizing best run with
  | nil => exact .nil
  | cons c cs ih =>
    have htail : ∀ d ∈ cs, d ≠ mark → d = '\n' ∨ Plain mark d :=
      fun d hd => hcs d (List.mem_cons_of_mem c hd)
    rw [List.foldl_cons, countRun] at h
    split_ifs at h with hmark
    · have hbest := le_foldl_countRun mark cs (max best (run + 1), run + 1)
      have hrun : run + 1 ≤ 2 := Nat.le_trans (Nat.le_max_right best _) (Nat.le_trans hbest h)
      rw [hmark]
      exact .mark (by omega) (ih htail h)
    · rcases hcs c List.mem_cons_self hmark with rfl | hc
      · exact .lineFeed (ih htail h)
      · exact .plain hc (ih htail h)

/-! ### The four forms -/

/-- The line end that is written in front of several lines is the one that is dropped. -/
theorem LongSpells.dropLineEnd {mark : Char} {run : Nat} {t s : List Char} (hm : IsMark mark)
    (h : LongSpells mark run t s) (rest : List Char) :
    dropLineEnd (leadingLineEnd s ++ (t ++ mark :: rest)) = t ++ mark :: rest := by
  rw [leadingLineEnd]
  split_ifs with hline
  · rfl
  · -- On one line, neither the text nor the mark after it begins with a line end.
    have hfront : ∃ c cs, t ++ mark :: rest = c :: cs ∧ c ≠ '\n' ∧ c ≠ '\r' := by
      have htext {c : Char} (hc : isTextChar c = true) : c ≠ '\n' ∧ c ≠ '\r' := by
        constructor <;> rintro rfl <;> cases hc
      cases h with
      | nil => exact ⟨_, _, rfl, htext hm.text⟩
      | mark => exact ⟨_, _, rfl, htext hm.text⟩
      | lineFeed => simp at hline
      | plain hc => exact ⟨_, _, rfl, htext hc.text⟩
      | escape => exact ⟨_, _, rfl, by decide, by decide⟩
    obtain ⟨c, cs, hcs, hn, hr⟩ := hfront
    rw [List.nil_append, hcs, Toml.dropLineEnd, takeLineEnd?.eq_def]
    split
    · rename_i heq
      split at heq
      · exact absurd (List.cons.inj ‹_›).1 hn
      · exact absurd (List.cons.inj ‹_›).1 hr
      · cases heq
    · rfl

theorem readText?_basic {cs : List Char} (h : cs.take 2 ≠ ['"', '"']) :
    readText? ('"' :: cs) = some (readBasic cs) := by
  rw [readText?.eq_3]
  rintro more rfl
  exact h rfl

theorem readText?_literal {cs : List Char} (h : cs.take 2 ≠ ['\'', '\'']) :
    readText? ('\'' :: cs) = some (readLiteral cs) := by
  rw [readText?.eq_4]
  rintro more rfl
  exact h rfl

/-- After a mark, what spells a text is not two more marks. -/
theorem Spells.take_two_ne {mark : Char} {t s rest : List Char} (hm : IsMark mark)
    (h : Spells mark t s) (hr : rest.head? ≠ some mark) :
    (t ++ mark :: rest).take 2 ≠ [mark, mark] := by
  have hcons {c : Char} {cs : List Char} (hc : c ≠ mark) : (c :: cs).take 2 ≠ [mark, mark] :=
    fun he => hc (List.cons.inj he).1
  cases h with
  | nil =>
    cases rest with
    | nil => simp
    | cons d more =>
      have hd : d ≠ mark := fun he => hr (by rw [he]; rfl)
      simp [hd]
  | plain hc => exact hcons hc.ne_mark
  | escape => exact hcons (by rcases hm with rfl | rfl <;> decide)

/-- A character that no escape is needed for stands for itself or ends a line. -/
theorem text_of_not_control {c : Char} (h : isControl c = false) (hn : c ≠ '\n') :
    isTextChar c = true := by
  simp only [isControl, Bool.or_eq_false_iff, Bool.and_eq_false_iff, decide_eq_false_iff_not,
    bne_eq_false_iff_eq, beq_eq_false_iff_ne] at h
  simp only [isTextChar, Bool.or_eq_true, beq_iff_eq, Bool.and_eq_true, decide_eq_true_eq,
    bne_iff_ne]
  obtain ⟨(hlow | rfl) | rfl, hdel⟩ := h
  · exact .inr ⟨by omega, hdel⟩
  · exact .inl rfl
  · exact absurd rfl hn

/-- The single quotes are chosen for what they can show. -/
theorem Form.plain_of_literal {cs : List Char} (h : ofText cs = .literal) :
    ∀ c ∈ cs, Plain '\'' c := by
  simp only [ofText] at h
  split_ifs at h with hbasic hliteral
  simp only [Bool.and_eq_true, Bool.not_eq_true', List.any_eq_false, List.contains_eq_mem,
    decide_eq_false_iff_not, Bool.not_eq_true] at hliteral
  obtain ⟨⟨hplain, hline⟩, hquote⟩ := hliteral
  intro c hc
  have hne {d : Char} (hd : d ∉ cs) : c ≠ d := fun he => hd (he ▸ hc)
  exact .between_single (text_of_not_control (hplain c hc) (hne hline)) (hne hquote)

/-- The three single quotes are chosen for what they can show. -/
theorem Form.longSpells_of_longLiteral {cs : List Char} (h : ofText cs = .longLiteral) :
    LongSpells '\'' 0 cs cs := by
  simp only [ofText] at h
  split_ifs at h with hbasic hliteral hlong hlongLiteral
  simp only [Bool.and_eq_true, Bool.not_eq_true', List.any_eq_false, decide_eq_true_eq,
    Bool.not_eq_true] at hlongLiteral
  obtain ⟨hplain, hrun⟩ := hlongLiteral
  refine longSpells_of_countRun (fun c hc hquote => ?_) (longestRun_eq _ cs ▸ hrun)
  by_cases hn : c = '\n'
  · exact .inl hn
  · exact .inr (.between_single (text_of_not_control (hplain c hc) hn) hquote)

/-- A text is read back in the form in which it was written, if no quote follows it. -/
theorem readText?_writeText (cs : List Char) {rest : List Char}
    (hr : ∀ mark, IsMark mark → rest.head? ≠ some mark) :
    readText? (writeText cs ++ rest) = some (some (cs, rest)) := by
  have hbasic : IsMark '"' := .inl rfl
  have hliteral : IsMark '\'' := .inr rfl
  rw [writeText]
  cases hform : Form.ofText cs with
  | basic =>
    have hspells := spells_escapeBasic cs
    have htake := hspells.take_two_ne hbasic (hr _ hbasic)
    simp only [List.cons_append, List.append_assoc, List.nil_append]
    rw [readText?_basic htake, hspells.readBasic]
  | literal =>
    have hspells := spells_self (Form.plain_of_literal hform)
    have htake := hspells.take_two_ne hliteral (hr _ hliteral)
    simp only [List.cons_append, List.append_assoc, List.nil_append]
    rw [readText?_literal htake, hspells.readLiteral]
  | longBasic =>
    have hspells := longSpells_escapeLong 0 cs
    simp only [List.cons_append, List.append_assoc, List.nil_append]
    rw [readText?, hspells.dropLineEnd hbasic, hspells.readLongBasic (hr _ hbasic)]
  | longLiteral =>
    have hspells := Form.longSpells_of_longLiteral hform
    simp only [List.cons_append, List.append_assoc, List.nil_append]
    rw [readText?, hspells.dropLineEnd hliteral, hspells.readLongLiteral (hr _ hliteral)]

end Toml
end EfsControl
