/-
# The tokens of a line, place by place

What a line splits into can be told without reading it from its beginning, from
what stands before each of its characters. A character is escaped when the run
of backslashes right before it has odd length. Quotes that are not escaped open
and close in turn, so a character stands between quotes when an odd number of
them is before it. A line splits at the separators that are neither escaped nor
between quotes, and each piece that is not empty is a token, without the quotes
that are not escaped and without the backslashes that escape.

Key definitions: `Token.Place`, `Token.quotes`, `Token.pieces`, `Token.ofPieces`,
`Token.Between`.
Key theorems: `Token.scan_places`, `tokenize_iff_places`.
-/
import EfsControl.Command.Token
import Mathlib.Algebra.Ring.Parity

namespace EfsControl
namespace Token

/-! ### Places -/

/-- The length of the run of backslashes at the end of a text. -/
def endBackslashes (cs : List Char) : Nat := (cs.reverse.takeWhile (· == '\\')).length

/-- A character of a line, and all that stands before it. -/
structure Place where
  before : List Char
  char : Char
  deriving DecidableEq

/-- The places of a text with `before` in front of it. -/
def placesAfter (before : List Char) : List Char → List Place
  | [] => []
  | c :: cs => ⟨before, c⟩ :: placesAfter (before ++ [c]) cs

/-- The places of a line. -/
def places (line : List Char) : List Place := placesAfter [] line

/-- Whether the run of backslashes right before the character has odd length. -/
def Place.isEscaped (p : Place) : Bool := decide (Odd (endBackslashes p.before))

/-- Whether the character is a quote that is not escaped. -/
def Place.isQuote (p : Place) : Bool := p.char == '"' && !p.isEscaped

/-- How many quotes of a text are not escaped. -/
def quotes (cs : List Char) : Nat := (places cs).countP Place.isQuote

/-- Whether the line splits here. -/
def Place.splits (p : Place) : Bool :=
  isSeparator p.char && !p.isEscaped && decide (Even (quotes p.before))

/-- Whether the character belongs to the token: all do but quotes and backslashes that are not
escaped. -/
def Place.isKept (p : Place) : Bool := p.isEscaped || (p.char != '"' && p.char != '\\')

/-- The pieces between the places at which a line splits. -/
def pieces (line : List Char) : List (List Place) := (places line).splitOnP Place.splits

/-- The text of a piece. -/
def pieceText (piece : List Place) : List Char := (piece.filter Place.isKept).map Place.char

/-- The texts of the pieces that are not empty. -/
def ofPieces (ps : List (List Place)) : List (List Char) :=
  (ps.filter fun piece => !piece.isEmpty).map pieceText

/-! ### One more character -/

section
variable (before : List Char) (c : Char)

theorem endBackslashes_snoc :
    endBackslashes (before ++ [c]) = if c = '\\' then endBackslashes before + 1 else 0 := by
  unfold endBackslashes
  rw [List.reverse_concat, List.takeWhile_cons]
  by_cases hc : c = '\\'
  · simp [hc]
  · simp [hc]

theorem placesAfter_append (xs ys : List Char) :
    placesAfter before (xs ++ ys) = placesAfter before xs ++ placesAfter (before ++ xs) ys := by
  induction xs generalizing before with
  | nil => simp [placesAfter]
  | cons x xs ih => simp [placesAfter, ih]

theorem quotes_snoc :
    quotes (before ++ [c]) = quotes before + if Place.isQuote ⟨before, c⟩ then 1 else 0 := by
  unfold quotes places
  rw [placesAfter_append, List.countP_append, List.nil_append]
  simp only [placesAfter, List.countP_singleton]

end

/-! ### What scanning keeps in mind -/

/-- Scanning has come to the end of `before`: the next character is not escaped, and it stands
between quotes exactly if `quoted` says so. -/
structure Between (before : List Char) (quoted : Bool) : Prop where
  unescaped : Even (endBackslashes before)
  quoted_iff : quoted = true ↔ Odd (quotes before)

namespace Between

variable {before : List Char} {quoted : Bool} {c : Char}

theorem nil : Between [] false := ⟨by decide, by decide⟩

/-- The next character is not escaped. -/
theorem isEscaped_eq (h : Between before quoted) (c : Char) :
    Place.isEscaped ⟨before, c⟩ = false :=
  decide_eq_false (Nat.not_odd_iff_even.mpr h.unescaped)

/-- Behind one more backslash the next character is. -/
theorem isEscaped_next (h : Between before quoted) (d : Char) :
    Place.isEscaped ⟨before ++ ['\\'], d⟩ = true := by
  apply decide_eq_true
  rw [endBackslashes_snoc, if_pos rfl]
  exact h.unescaped.add_one

/-- A backslash and the character that it escapes. The two together leave a run of even length,
whether that character is a backslash or not. -/
theorem escape (h : Between before quoted) (d : Char) : Between (before ++ ['\\', d]) quoted := by
  have hbefore : before ++ ['\\', d] = before ++ ['\\'] ++ [d] :=
    (List.append_assoc before ['\\'] [d]).symm
  constructor
  · rw [hbefore, endBackslashes_snoc, endBackslashes_snoc, if_pos rfl]
    split
    · exact h.unescaped.add_one.add_one
    · exact Even.zero
  · have hslash : Place.isQuote ⟨before, '\\'⟩ = false := rfl
    have hnext : Place.isQuote ⟨before ++ ['\\'], d⟩ = false := by
      unfold Place.isQuote
      rw [h.isEscaped_next, Bool.not_true, Bool.and_false]
    rw [hbefore, quotes_snoc, quotes_snoc, hslash, hnext]
    exact h.quoted_iff

theorem quote (h : Between before quoted) : Between (before ++ ['"']) (!quoted) := by
  constructor
  · rw [endBackslashes_snoc, if_neg (by decide)]
    exact Even.zero
  · have hquote : Place.isQuote ⟨before, '"'⟩ = true := by
      unfold Place.isQuote
      rw [h.isEscaped_eq]
      rfl
    rw [quotes_snoc, hquote, if_pos rfl, Nat.odd_add_one, ← h.quoted_iff, Bool.not_eq_true',
      Bool.not_eq_true]

theorem plain (h : Between before quoted) (hb : c ≠ '\\') (hq : c ≠ '"') :
    Between (before ++ [c]) quoted := by
  constructor
  · rw [endBackslashes_snoc, if_neg hb]
    exact Even.zero
  · have hquote : Place.isQuote ⟨before, c⟩ = false := by
      unfold Place.isQuote
      rw [beq_false_of_ne hq, Bool.false_and]
    rw [quotes_snoc, hquote]
    exact h.quoted_iff

theorem splits_eq (h : Between before quoted) (c : Char) :
    Place.splits ⟨before, c⟩ = (isSeparator c && !quoted) := by
  have hparity : decide (Even (quotes before)) = !quoted := by
    cases quoted with
    | false =>
      have hodd : ¬Odd (quotes before) := fun ho => Bool.false_ne_true (h.quoted_iff.mpr ho)
      exact decide_eq_true (Nat.not_odd_iff_even.mp hodd)
    | true => exact decide_eq_false (Nat.not_even_iff_odd.mpr (h.quoted_iff.mp rfl))
  unfold Place.splits
  rw [h.isEscaped_eq, hparity, Bool.not_false, Bool.and_true]

end Between

/-! ### The token that has begun -/

/-- The token that has begun, after one more piece of the line. -/
def join (current : Option (List Char)) (piece : List Place) : Option (List Char) :=
  if piece.isEmpty then current else some ((pieceText piece).reverse ++ current.getD [])

/-- The tokens of the pieces that are left, the first of which goes on with the token that has
begun. -/
def resume (current : Option (List Char)) : List (List Place) → List (List Char)
  | [] => finish current []
  | piece :: ps => finish (join current piece) (ofPieces ps)

theorem resume_none (ps : List (List Place)) : resume none ps = ofPieces ps := by
  cases ps with
  | nil => rfl
  | cons piece ps =>
    cases piece with
    | nil => rfl
    | cons p piece => simp [resume, join, finish, ofPieces]

/-- The pieces of what follows a text are found one character at a time. -/
theorem splitOnP_placesAfter (before : List Char) (c : Char) (cs : List Char) :
    (placesAfter before (c :: cs)).splitOnP Place.splits =
      if Place.splits ⟨before, c⟩ then [] :: (placesAfter (before ++ [c]) cs).splitOnP Place.splits
      else ((placesAfter (before ++ [c]) cs).splitOnP Place.splits).modifyHead (⟨before, c⟩ :: ·) :=
  List.splitOnP_cons_eq_if_modifyHead ..

section
variable {p : Place} (current : Option (List Char)) {ps : List (List Place)} (hps : ps ≠ [])
include hps

theorem resume_kept (hp : p.isKept = true) :
    resume current (ps.modifyHead (p :: ·)) = resume (extend current p.char) ps := by
  obtain ⟨piece, ps, rfl⟩ := List.exists_cons_of_ne_nil hps
  cases piece with
  | nil => simp [resume, join, pieceText, hp, extend]
  | cons q piece => simp [resume, join, pieceText, hp, extend, List.filter_cons]

theorem resume_dropped (hp : p.isKept = false) :
    resume current (ps.modifyHead (p :: ·)) = resume (some (current.getD [])) ps := by
  obtain ⟨piece, ps, rfl⟩ := List.exists_cons_of_ne_nil hps
  cases piece with
  | nil => simp [resume, join, pieceText, hp]
  | cons q piece => simp [resume, join, pieceText, hp, List.filter_cons]

end

/-! ### Scanning -/

/-- What a line comes to, with the tokens that it has if nothing is wrong with it. The lone escape
counts before the open quote. -/
def verdict (line : List Char) (tokens : List (List Char)) : Except TokenError (List (List Char)) :=
  if Odd (endBackslashes line) then .error .trailingEscape
  else if Odd (quotes line) then .error .unterminatedQuote
  else .ok tokens

theorem map_verdict (f : List (List Char) → List (List Char)) (line : List Char)
    (tokens : List (List Char)) : (verdict line tokens).map f = verdict line (f tokens) := by
  unfold verdict
  split
  · rfl
  · split <;> rfl

/-- Scanning what stands behind a text finds the pieces that are left. -/
theorem scan_places {before cs : List Char} {quoted : Bool} {current : Option (List Char)}
    (h : Between before quoted) : scan cs quoted current = verdict (before ++ cs)
      (resume current ((placesAfter before cs).splitOnP Place.splits)) := by
  have hne (ps : List Place) : ps.splitOnP Place.splits ≠ [] := List.splitOnP_ne_nil Place.splits ps
  -- The cases are the steps of the scan. Each takes one character, but an escape takes two.
  fun_induction scan cs quoted current generalizing before with
  | case1 current =>
    have hodd : Odd (quotes before) := h.quoted_iff.mp rfl
    unfold verdict
    rw [List.append_nil, if_neg (Nat.not_odd_iff_even.mpr h.unescaped), if_pos hodd]
  | case2 quoted current hq =>
    have hodd : ¬Odd (quotes before) := fun ho => hq (h.quoted_iff.mpr ho)
    unfold verdict
    rw [List.append_nil, if_neg (Nat.not_odd_iff_even.mpr h.unescaped), if_neg hodd]
    rfl
  | case3 quoted current =>
    have hodd : Odd (endBackslashes (before ++ ['\\'])) := by
      rw [endBackslashes_snoc, if_pos rfl]
      exact h.unescaped.add_one
    unfold verdict
    rw [if_pos hodd]
  | case4 quoted current d ds ih =>
    have hslash : Place.splits ⟨before, '\\'⟩ = false := rfl
    have hdropped : Place.isKept ⟨before, '\\'⟩ = false := by
      unfold Place.isKept
      rw [h.isEscaped_eq]
      rfl
    have hnext : Place.splits ⟨before ++ ['\\'], d⟩ = false := by
      unfold Place.splits
      rw [h.isEscaped_next, Bool.not_true, Bool.and_false, Bool.false_and]
    have hkept : Place.isKept ⟨before ++ ['\\'], d⟩ = true := by
      unfold Place.isKept
      rw [h.isEscaped_next, Bool.true_or]
    have hbefore : before ++ ['\\'] ++ [d] = before ++ ['\\', d] := List.append_assoc ..
    rw [ih (h.escape d), splitOnP_placesAfter, if_neg (ne_true_of_eq_false hslash),
      resume_dropped current (hne _) hdropped, splitOnP_placesAfter,
      if_neg (ne_true_of_eq_false hnext), resume_kept _ (hne _) hkept, hbefore, List.append_assoc]
    rfl
  | case5 cs quoted current _ ih =>
    have hsplits : Place.splits ⟨before, '"'⟩ = false := rfl
    have hdropped : Place.isKept ⟨before, '"'⟩ = false := by
      unfold Place.isKept
      rw [h.isEscaped_eq]
      rfl
    rw [ih h.quote, splitOnP_placesAfter, if_neg (ne_true_of_eq_false hsplits),
      resume_dropped current (hne _) hdropped, List.append_assoc, List.singleton_append]
  | case6 c cs quoted current hb hq hs ih =>
    have hsplits : Place.splits ⟨before, c⟩ = true := (h.splits_eq c).trans hs
    have hquoted : quoted = false := by simpa using (Bool.and_eq_true_iff.mp hs).2
    subst hquoted
    rw [ih (h.plain hb hq), map_verdict, splitOnP_placesAfter, if_pos hsplits, resume_none,
      List.append_assoc, List.singleton_append]
    rfl
  | case7 c cs quoted current hb hq hs ih =>
    have hsplits : ¬Place.splits ⟨before, c⟩ = true := (h.splits_eq c).symm ▸ hs
    have hkept : Place.isKept ⟨before, c⟩ = true := by simp [Place.isKept, hb, hq]
    rw [ih (h.plain hb hq), splitOnP_placesAfter, if_neg hsplits,
      resume_kept current (hne _) hkept, List.append_assoc, List.singleton_append]

end Token

/-- **The tokens of a line, place by place.** A line ends with a lone escape exactly if it ends with
a run of backslashes of odd length, be it between quotes or not. Otherwise a quote is open exactly
if the number of quotes that are not escaped is odd. Otherwise the tokens are the texts of the
pieces that are not empty. -/
theorem tokenize_iff_places (line : String) :
    (tokenize line = .error .trailingEscape ↔ Odd (Token.endBackslashes line.toList)) ∧
    (tokenize line = .error .unterminatedQuote ↔
      ¬Odd (Token.endBackslashes line.toList) ∧ Odd (Token.quotes line.toList)) ∧
    ∀ tokens, tokenize line = .ok tokens ↔
      ¬Odd (Token.endBackslashes line.toList) ∧ ¬Odd (Token.quotes line.toList) ∧
        tokens = (Token.ofPieces (Token.pieces line.toList)).map String.ofList := by
  have hscan : Token.scan line.toList false none = Token.verdict line.toList
      (Token.ofPieces (Token.pieces line.toList)) := by
    rw [Token.scan_places .nil, Token.resume_none]
    rfl
  unfold tokenize
  rw [hscan, Token.verdict]
  by_cases hb : Odd (Token.endBackslashes line.toList)
  · simp [hb, Except.map]
  · by_cases hq : Odd (Token.quotes line.toList)
    · simp [hb, hq, Except.map]
    · simp [hb, hq, Except.map, eq_comm]

example : Token.ofPieces (Token.pieces "a  \"b c\"\t\\\" \"\" d\\\\\"e\\ f\"".toList) =
    ["a".toList, "b c".toList, ['"'], [], "d\\e f".toList] := by decide +kernel

end EfsControl
