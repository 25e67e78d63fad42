/-
# Lines in a stream of bytes

Both ends of a connection read lines, each ended by one fixed byte. The bytes
arrive in pieces of any size; what is left after the last end is kept until
more of it comes.

Key definitions: `takeLine?`, `splitLines`.
Key theorems: `takeLine?_line`, `splitLines_append`, `splitLines_of_takeLine?`,
`splitLines_lines`.
-/
import EfsControl.Text.Utf8

namespace EfsControl

/-- The first line without the byte that ends it, and the bytes after that byte. -/
def takeLine? (terminator : UInt8) : List UInt8 → Option (List UInt8 × List UInt8)
  | [] => none
  | b :: bs =>
    if b = terminator then some ([], bs)
    else (takeLine? terminator bs).map fun (line, rest) => (b :: line, rest)

/-- All complete lines, and the bytes after the last of them. -/
def splitLines (terminator : UInt8) : List UInt8 → List (List UInt8) × List UInt8
  | [] => ([], [])
  | b :: bs =>
    let (lines, rest) := splitLines terminator bs
    if b = terminator then ([] :: lines, rest)
    else
      match lines with
      | [] => ([], b :: rest)
      | line :: lines => ((b :: line) :: lines, rest)

/-- Reading in two pieces gives the same lines as reading at once. -/
theorem splitLines_append (t : UInt8) (as bs : List UInt8) :
    splitLines t (as ++ bs) =
      ((splitLines t as).1 ++ (splitLines t ((splitLines t as).2 ++ bs)).1,
        (splitLines t ((splitLines t as).2 ++ bs)).2) := by
  induction as with
  | nil => simp [splitLines]
  | cons a as ih =>
    simp only [List.cons_append, splitLines, ih]
    by_cases ha : a = t
    · simp [ha]
    · cases h : (splitLines t as).1 with
      | nil => simp [ha, splitLines]
      | cons l ls => simp [ha]

/-- A line without the byte that ends lines is the first of what it stands in front of. -/
theorem takeLine?_line {t : UInt8} {line : List UInt8} (h : t ∉ line) (rest : List UInt8) :
    takeLine? t (line ++ t :: rest) = some (line, rest) := by
  induction line with
  | nil => exact if_pos rfl
  | cons b line ih =>
    have hb : b ≠ t := fun hb => h (hb ▸ List.mem_cons_self)
    have hline : t ∉ line := fun hm => h (List.mem_cons_of_mem b hm)
    rw [List.cons_append, takeLine?, if_neg hb, ih hline, Option.map_some]

/-- The first line is the first of all, and the others are those of what follows it. -/
theorem splitLines_of_takeLine? {t : UInt8} {bs line rest : List UInt8}
    (h : takeLine? t bs = some (line, rest)) :
    splitLines t bs = (line :: (splitLines t rest).1, (splitLines t rest).2) := by
  induction bs generalizing line rest with
  | nil => simp [takeLine?] at h
  | cons b bs ih =>
    rw [takeLine?] at h
    by_cases hb : b = t
    · rw [if_pos hb, Option.some.injEq, Prod.mk.injEq] at h
      simp only [splitLines, if_pos hb, ← h.1, ← h.2]
    · rw [if_neg hb] at h
      obtain ⟨⟨l, r⟩, hl, he⟩ := Option.map_eq_some_iff.1 h
      rw [Prod.mk.injEq] at he
      simp only [splitLines, if_neg hb, ih hl, ← he.1, ← he.2]

/-- Lines that are each ended once are read as they were written, and nothing is left. -/
theorem splitLines_lines {t : UInt8} {lines : List (List UInt8)} (h : ∀ line ∈ lines, t ∉ line) :
    splitLines t (lines.flatMap (· ++ [t])) = (lines, []) := by
  induction lines with
  | nil => rfl
  | cons line lines ih =>
    have hfirst := takeLine?_line (h line List.mem_cons_self) (lines.flatMap (· ++ [t]))
    rw [List.flatMap_cons, List.append_assoc, List.singleton_append,
      splitLines_of_takeLine? hfirst, ih fun l hl => h l (List.mem_cons_of_mem line hl)]

end EfsControl
