/-
# The tokens of a line and of its message

Splitting a line at a separator that stands outside quotes, with no open escape
before it, splits the tokens too: scanning starts afresh behind it. The words in
front of a message are such lines. They hold digits, perhaps after a plus sign,
so each is one token, whatever the message holds: runs of blanks, quotes that
are never closed, or nothing.

Key definitions: `Line.codeWord`, `Line.numberWord`.
Key theorems: `Token.scan_append`, `tokenize_append`, `tokenize_plain`,
`Line.tokenize_splitWord`, `tokenize_cut`.
-/
import EfsControl.Proofs.Command.Wire
import EfsControl.Proofs.Reply
import EfsControl.Proofs.Text.Decimal

namespace EfsControl

/-! ### A line cut at a separator -/

namespace Token

theorem finish_append (current : Option (List Char)) (xs ys : List (List Char)) :
    finish current (xs ++ ys) = finish current xs ++ ys := by
  cases current <;> rfl

/-- Where a text ends, outside quotes and behind no lone escape, a separator starts scanning
afresh. -/
theorem scan_append {s : Char} (hs : isSeparator s = true) {as : List Char} {quoted : Bool}
    {current : Option (List Char)} {ts : List (List Char)} (h : scan as quoted current = .ok ts)
    (bs : List Char) :
    scan (as ++ s :: bs) quoted current = (scan bs false none).map (ts ++ ·) := by
  fun_induction scan as quoted current generalizing ts with
  | case1 => cases h
  | case2 quoted current hq =>
    cases h
    rw [Bool.not_eq_true] at hq
    subst hq
    rw [List.nil_append, scan_separator _ _ hs]
    congr 1
    funext xs
    exact finish_append current [] xs
  | case3 => cases h
  | case4 quoted current d ds ih =>
    rw [List.cons_append, List.cons_append, scan_backslash]
    exact ih h
  | case5 cs quoted current _ ih =>
    rw [List.cons_append, scan_quote]
    exact ih h
  | case6 c cs quoted current hb hq hc ih =>
    -- The text splits here already, so what follows is scanned afresh on both sides.
    obtain ⟨hsep, hquoted⟩ := Bool.and_eq_true_iff.mp hc
    rw [Bool.not_eq_true'] at hquoted
    subst hquoted
    cases hcs : scan cs false none with
    | error e =>
      rw [hcs] at h
      cases h
    | ok xs =>
      rw [hcs] at h
      cases h
      rw [List.cons_append, scan_separator _ _ hsep, ih hcs]
      cases scan bs false none with
      | error e => rfl
      | ok ys => exact congrArg Except.ok (finish_append current xs ys)
  | case7 c cs quoted current hb hq hc ih =>
    rw [List.cons_append, scan_other _ _ _ hb hq (Bool.not_eq_true _ ▸ hc)]
    exact ih h

end Token

/-- A line of tokens, a separator and another text: the tokens of the line, then those of the
text. -/
theorem tokenize_append {a : String} {ts : List String} (h : tokenize a = .ok ts) {s : Char}
    (hs : Token.isSeparator s = true) (b : String) :
    tokenize (a ++ String.singleton s ++ b) = (tokenize b).map (ts ++ ·) := by
  rw [tokenize] at h
  cases ha : Token.scan a.toList false none with
  | error e =>
    rw [ha] at h
    cases h
  | ok xs =>
    rw [ha] at h
    cases h
    have hall : (a ++ String.singleton s ++ b).toList = a.toList ++ s :: b.toList := by simp
    rw [tokenize, tokenize, hall, Token.scan_append hs ha]
    cases Token.scan b.toList false none with
    | error e => rfl
    | ok ys => exact congrArg Except.ok List.map_append

/-- A plain text is one token. -/
theorem tokenize_plain {cs : List Char} (h : Token.IsPlain cs) :
    tokenize (String.ofList cs) = .ok [String.ofList cs] := by
  have hone := tokenize_spaced [cs]
  rwa [Command.spaced, Command.escaped_plain h, List.flatMap_nil, List.append_nil] at hone

/-! ### The words in front of a message -/

namespace Line

variable {cs word rest : List Char}

/-- A decimal number is plain. -/
theorem isPlain_of_readUpTo? {max n : Nat} (h : Text.readUpTo? max cs = some n) :
    Token.IsPlain cs := by
  obtain ⟨⟨ds, hcs, hne, hdigits, -⟩, -⟩ := Text.readUpTo?_eq_some_iff.mp h
  rcases hcs with rfl | rfl
  · exact .of_digits hne fun c hc => .inl (hdigits c hc)
  · refine .of_digits (List.cons_ne_nil _ _) fun c hc => ?_
    rcases List.mem_cons.mp hc with rfl | hc
    · exact .inr (.inl rfl)
    · exact .inl (hdigits c hc)

theorem isPlain_of_readCode? {code : Nat} (h : readCode? cs = some code) : Token.IsPlain cs := by
  unfold readCode? at h
  split at h
  · exact isPlain_of_readUpTo? h
  · cases h

theorem isPlain_of_readUInt32? {n : UInt32} (h : Text.readUInt32? cs = some n) :
    Token.IsPlain cs := by
  obtain ⟨k, hk, -⟩ := Option.map_eq_some_iff.mp h
  exact isPlain_of_readUpTo? hk

/-- The tokens of a line whose first word is plain: the word, then those of the rest. -/
theorem tokenize_splitWord {raw : String} (hword : splitWord raw.toList = (word, rest))
    (h : Token.IsPlain word) :
    tokenize raw = (tokenize (String.ofList rest)).map (String.ofList word :: ·) := by
  generalize hraw : raw.toList = cs at hword
  cases splitWord_eq_iff.mp hword with
  | whole =>
    rw [← String.ofList_toList (s := raw), hraw, tokenize_plain h]
    rfl
  | space =>
    have hjoin : raw = String.ofList word ++ String.singleton ' ' ++ String.ofList rest := by
      apply String.toList_injective
      simp [hraw]
    rw [hjoin, tokenize_append (tokenize_plain h) rfl]
    rfl

/-- The first word of a line. -/
def codeWord (raw : String) : String := String.ofList (splitWord raw.toList).1

/-- The second word of a line. -/
def numberWord (raw : String) : String := String.ofList (splitWord (splitWord raw.toList).2).1

end Line

/-- **Splitting a line and splitting its message agree.** Behind a line that has tokens and a
separator, a text is split as if it stood alone. So the tokens of a line that was understood are the
word of the code, for a numbered reply the word of the number, and the tokens of the message; and
the line fails to split exactly as the message does. -/
theorem tokenize_cut :
    (∀ (a b : String) (ts : List String) (s : Char), s = ' ' ∨ s = '\t' → tokenize a = .ok ts →
      tokenize (a ++ String.singleton s ++ b) = (tokenize b).map (ts ++ ·)) ∧
    (∀ (raw : String) (numbered : Bool) (e : Event), parseLine raw numbered = .ok (.event e) →
      tokenize raw = e.cooked.map (Line.codeWord raw :: ·)) ∧
    (∀ (raw : String) (r : Reply), parseLine raw false = .ok (.reply r) →
      tokenize raw = r.cooked.map (Line.codeWord raw :: ·)) ∧
    (∀ (raw : String) (r : Reply), parseLine raw true = .ok (.reply r) →
      tokenize raw = r.cooked.map fun ts => Line.codeWord raw :: Line.numberWord raw :: ts) := by
  refine ⟨fun a b ts s hs ha => ?_, fun raw numbered e h => ?_, fun raw r h => ?_,
    fun raw r h => ?_⟩
  · have hsep : Token.isSeparator s = true := by
      rcases hs with rfl | rfl <;> rfl
    exact tokenize_append ha hsep b
  · cases parseLine_iff.mp h with
    | event hword hcode _ =>
      rw [Line.codeWord, hword]
      exact Line.tokenize_splitWord hword (Line.isPlain_of_readCode? hcode)
  · cases parseLine_iff.mp h with
    | plain hword hcode _ _ =>
      rw [Line.codeWord, hword]
      exact Line.tokenize_splitWord hword (Line.isPlain_of_readCode? hcode)
  · cases parseLine_iff.mp h with
    | @numbered word rest number message code c seq hword hcode _ _ hnumber hseq =>
      have hrest : Line.splitWord (String.ofList rest).toList = (number, message) := by
        rw [String.toList_ofList, hnumber]
      rw [Line.codeWord, Line.numberWord, hword, hnumber,
        Line.tokenize_splitWord hword (Line.isPlain_of_readCode? hcode),
        Line.tokenize_splitWord hrest (Line.isPlain_of_readUInt32? hseq), Reply.cooked]
      cases tokenize (String.ofList message) <;> rfl

/-- A line cut at a tab, a numbered reply with two spaces in front of a quoted word, one without a
message, and an event with a quote that is never closed. -/
theorem tokenize_cut_quoted :
    tokenize ("a\\ b" ++ String.singleton '\t' ++ "\"\" c") = .ok ["a b", "", "c"] ∧
    tokenize "200 7  \"a b\"" = .ok ["200", "7", "a b"] ∧
    tokenize "200" = .ok ["200"] ∧
    tokenize "650 x \"a" = .error .unterminatedQuote := by
  obtain ⟨hcut, hevent, hplain, hnumbered⟩ := tokenize_cut
  have ha : tokenize "a\\ b" = .ok ["a b"] := by decide +kernel
  have hb : tokenize "\"\" c" = .ok ["", "c"] := by decide +kernel
  have hmessage : tokenize " \"a b\"" = .ok ["a b"] := by decide +kernel
  have hempty : tokenize "" = .ok [] := by decide +kernel
  have hopen : tokenize "x \"a" = .error .unterminatedQuote := by decide +kernel
  have hn : parseLine "200 7  \"a b\"" true = .ok (.reply ⟨200, some 7, " \"a b\"", []⟩) := by
    decide +kernel
  have hp : parseLine "200" false = .ok (.reply ⟨200, none, "", []⟩) := by decide +kernel
  have he : parseLine "650 x \"a" true = .ok (.event ⟨650, "x \"a", "650 x \"a"⟩) := by
    decide +kernel
  refine ⟨?_, ?_, ?_, ?_⟩
  · rw [hcut _ _ _ _ (.inr rfl) ha, hb]
    rfl
  · rw [hnumbered _ _ hn, Reply.cooked, hmessage]
    decide +kernel
  · rw [hplain _ _ hp, Reply.cooked, hempty]
    decide +kernel
  · rw [hevent _ _ _ he, Event.cooked, hopen]
    rfl

end EfsControl
