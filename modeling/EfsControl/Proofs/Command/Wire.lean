/-
# A command line is its tokens

An encoded command is the written form of its tokens (the number, the prefix,
the subcommand and the arguments) with one space between two of them. It
exists when the words are words and no argument holds a character that ends
a line. Splitting it gives the tokens back, whatever they are made of.

Key definitions: `Command.tokens`, `Command.spaced`, `Token.IsPlain`.
Key theorems: `Token.scan_escaped`, `Token.scan_spaced`, `encode_wire`,
`encode_eq_ok_iff`, `tokenize_wire`.
-/
import EfsControl.Command.Encode
import EfsControl.Proofs.Text.Decimal
import Mathlib.Data.List.Basic

namespace EfsControl

namespace Token

/-! ### One token -/

theorem foldl_extend_some (cs acc : List Char) :
    cs.foldl extend (some acc) = some (cs.reverse ++ acc) := by
  induction cs generalizing acc with
  | nil => rfl
  | cons c cs ih =>
    rw [List.foldl_cons, List.reverse_cons, List.append_assoc]
    exact ih (c :: acc)

theorem foldl_extend_none {cs : List Char} (h : cs ≠ []) :
    cs.foldl extend none = some cs.reverse := by
  obtain ⟨c, cs, rfl⟩ := List.exists_cons_of_ne_nil h
  rw [List.foldl_cons, List.reverse_cons]
  exact foldl_extend_some cs [c]

/-- A character that is written as a part of a token is read as that part. -/
theorem scan_escapeChar {c : Char} {quoted : Bool} (h : quoted = true ∨ isSeparator c = false)
    (rest : List Char) (current : Option (List Char)) :
    scan (Command.escapeChar c ++ rest) quoted current = scan rest quoted (extend current c) := by
  unfold Command.escapeChar
  by_cases hb : c = '\\'
  · subst hb
    rfl
  by_cases hq : c = '"'
  · subst hq
    rfl
  have hsep : (isSeparator c && !quoted) = false := by
    rcases h with rfl | h
    · rw [Bool.not_true, Bool.and_false]
    · rw [h, Bool.false_and]
  have he : (c == '\\' || c == '"') = false := by
    simp [hb, hq]
  rw [he, if_neg Bool.false_ne_true, List.singleton_append, scan_other _ _ _ hb hq hsep]

theorem scan_escapeChars {cs : List Char} {quoted : Bool}
    (h : quoted = true ∨ ∀ c ∈ cs, isSeparator c = false)
    (rest : List Char) (current : Option (List Char)) :
    scan (cs.flatMap Command.escapeChar ++ rest) quoted current =
      scan rest quoted (cs.foldl extend current) := by
  induction cs generalizing current with
  | nil => rfl
  | cons c cs ih =>
    have hc : quoted = true ∨ isSeparator c = false := h.imp_right fun h => h c List.mem_cons_self
    have hcs : quoted = true ∨ ∀ c ∈ cs, isSeparator c = false :=
      h.imp_right fun h d hd => h d (List.mem_cons_of_mem _ hd)
    rw [List.flatMap_cons, List.append_assoc, scan_escapeChar hc, ih hcs, List.foldl_cons]

/-- A written token is read as the token, whatever follows it: an empty one or one with separators
by the quotes around it. -/
theorem scan_escaped (cs rest : List Char) :
    scan (Command.escaped cs ++ rest) false none = scan rest false (some cs.reverse) := by
  unfold Command.escaped
  by_cases h : Command.needsQuotes cs = true
  · rw [if_pos h, List.cons_append, List.cons_append, List.append_assoc, scan_quote]
    change scan _ true (some []) = _
    rw [scan_escapeChars (.inl rfl), foldl_extend_some, List.append_nil, List.singleton_append,
      scan_quote]
    rfl
  · have hne : cs ≠ [] := fun he => h (by rw [he]; rfl)
    have hsep : ∀ c ∈ cs, isSeparator c = false := by
      simp only [Command.needsQuotes, Bool.or_eq_true, not_or, List.any_eq_true, not_exists,
        not_and, Bool.not_eq_true] at h
      exact h.2
    rw [if_neg h, scan_escapeChars (.inr hsep), foldl_extend_none hne]

end Token

namespace Command

/-! ### All tokens of a line -/

/-- Tokens as a line writes them, with one space between two. -/
def spaced : List (List Char) → List Char
  | [] => []
  | t :: ts => escaped t ++ ts.flatMap fun t => ' ' :: escaped t

/-- What a command says, in order. -/
def tokens (seq : Option UInt32) (commandPrefix subcommand : String) (args : List Arg) :
    List (List Char) :=
  (seq.map fun n => Text.digits n.toNat).toList ++
    commandPrefix.toList :: subcommand.toList :: args.map Arg.chars

end Command

/-- The tokens of a line that writes tokens. -/
theorem Token.scan_spaced (ts : List (List Char)) :
    Token.scan (Command.spaced ts) false none = .ok ts := by
  have hmore (ts : List (List Char)) (current : Option (List Char)) :
      Token.scan (ts.flatMap fun t => ' ' :: Command.escaped t) false current =
        .ok (Token.finish current ts) := by
    induction ts generalizing current with
    | nil => rfl
    | cons t ts ih =>
      rw [List.flatMap_cons, List.cons_append, Token.scan_separator _ _ rfl, Token.scan_escaped, ih]
      simp only [Token.finish, Except.map, List.reverse_reverse]
  cases ts with
  | nil => rfl
  | cons t ts =>
    rw [Command.spaced, Token.scan_escaped, hmore]
    simp only [Token.finish, List.reverse_reverse]

theorem tokenize_spaced (ts : List (List Char)) :
    tokenize (String.ofList (Command.spaced ts)) = .ok (ts.map String.ofList) := by
  rw [tokenize, String.toList_ofList, Token.scan_spaced]
  rfl

/-! ### Texts that are written as they are -/

/-- A text that is one token as it stands: it has no separators, quotes and backslashes. -/
structure Token.IsPlain (cs : List Char) : Prop where
  ne_nil : cs ≠ []
  plain : ∀ c ∈ cs, isSeparator c = false ∧ c ≠ '\\' ∧ c ≠ '"'

/-- Digits with or without a sign are plain. -/
theorem Token.IsPlain.of_digits {cs : List Char} (hne : cs ≠ [])
    (h : ∀ c ∈ cs, c.isDigit = true ∨ c = '+' ∨ c = '-') : IsPlain cs := by
  refine ⟨hne, fun c hc => ?_⟩
  rcases h c hc with hd | rfl | rfl
  · have hother (d : Char) (h : d.isDigit = false) : c ≠ d := Text.ne_of_test hd h
    exact ⟨by simp [isSeparator, hother ' ' rfl, hother '\t' rfl], hother _ rfl, hother _ rfl⟩
  · decide
  · decide

namespace Command

theorem escapeChar_plain {c : Char} (hb : c ≠ '\\') (hq : c ≠ '"') : escapeChar c = [c] := by
  simp [escapeChar, hb, hq]

/-- A plain text is written as it is. -/
theorem escaped_plain {cs : List Char} (h : Token.IsPlain cs) : escaped cs = cs := by
  have hq : needsQuotes cs = false := by
    simp only [needsQuotes, Bool.or_eq_false_iff, List.any_eq_false, List.isEmpty_eq_false_iff]
    exact ⟨h.ne_nil, fun c hc => by simp [(h.plain c hc).1]⟩
  have hs : cs.flatMap escapeChar = cs := by
    calc cs.flatMap escapeChar
      _ = cs.flatMap (fun c => [c]) :=
        List.flatMap_congr fun c hc => escapeChar_plain (h.plain c hc).2.1 (h.plain c hc).2.2
      _ = cs := List.flatMap_singleton' cs
  rw [escaped, hq, if_neg Bool.false_ne_true, hs]

theorem isWord_iff {cs : List Char} :
    isWord cs = true ↔ cs ≠ [] ∧ ∀ c ∈ cs, Text.isBlank c = false ∧ c ≠ '"' ∧ c ≠ '\\' := by
  simp [isWord, List.any_eq_false, not_or, and_assoc]

theorem isBlank_of_isSeparator {c : Char} (h : Token.isSeparator c = true) :
    Text.isBlank c = true := by
  simp only [Token.isSeparator, Bool.or_eq_true, beq_iff_eq] at h
  rcases h with rfl | rfl <;> decide

theorem escaped_of_isWord {cs : List Char} (h : isWord cs = true) : escaped cs = cs := by
  obtain ⟨hne, h⟩ := isWord_iff.1 h
  refine escaped_plain ⟨hne, fun c hc => ⟨?_, (h c hc).2.2, (h c hc).2.1⟩⟩
  by_contra hs
  have hblank := isBlank_of_isSeparator (Bool.not_eq_false _ ▸ hs)
  rw [(h c hc).1] at hblank
  exact Bool.false_ne_true hblank

/-- A decimal integer holds digits and a minus sign alone. -/
theorem mem_intDigits {n : Int} {c : Char} (h : c ∈ Text.intDigits n) :
    c.isDigit = true ∨ c = '-' := by
  cases n with
  | ofNat k => exact .inl (Text.isDigit_of_mem_digits h)
  | negSucc k => exact (List.mem_cons.mp h).symm.imp_left Text.isDigit_of_mem_digits

theorem intDigits_ne_nil (n : Int) : Text.intDigits n ≠ [] := by
  cases n with
  | ofNat k => exact Nat.toDigits_ne_nil
  | negSucc k => exact List.cons_ne_nil _ _

theorem escaped_intDigits (n : Int) : escaped (Text.intDigits n) = Text.intDigits n :=
  escaped_plain (.of_digits (intDigits_ne_nil n) fun _ hc => (mem_intDigits hc).imp_right .inr)

/-! ### Writing a command -/

/-- An argument that can be written: none of its characters ends a line. -/
def Sendable (a : Arg) : Prop := ∀ c ∈ a.chars, isForbidden c = false

theorem sendable_int (n : Int) : Sendable (.int n) := by
  intro c hc
  rcases mem_intDigits hc with hd | rfl
  · have hother (d : Char) (h : d.isDigit = false) : c ≠ d := Text.ne_of_test hd h
    simp [isForbidden, hother '\x00' rfl, hother '\n' rfl, hother '\r' rfl]
  · rfl

/-- Escaping fails exactly at a character that ends a line. -/
theorem escape_eq (index : Nat) (cs : List Char) :
    (∀ c ∈ cs, isForbidden c = false) ∧ escape index cs = .ok (escaped cs) ∨
    (∃ c ∈ cs, isForbidden c = true) ∧ ∃ e, escape index cs = .error e := by
  unfold escape
  cases h : cs.find? isForbidden with
  | none =>
    refine .inl ⟨fun c hc => ?_, rfl⟩
    simpa using List.find?_eq_none.1 h c hc
  | some c => exact .inr ⟨⟨c, List.mem_of_find?_eq_some h, List.find?_some h⟩, _, rfl⟩

/-- The written form of an argument, on the wire and in the log. -/
theorem writeArg_eq (index : Nat) (a : Arg) :
    Sendable a ∧ (∃ shown, writeArg index a = .ok (escaped a.chars, shown)) ∨
    ¬Sendable a ∧ ∃ e, writeArg index a = .error e := by
  have hnot {cs : List Char} (h : ∃ c ∈ cs, isForbidden c = true) :
      ¬∀ c ∈ cs, isForbidden c = false := fun hall => by
    obtain ⟨c, hc, hf⟩ := h
    rw [hall c hc] at hf
    exact Bool.false_ne_true hf
  cases a with
  | int n => exact .inl ⟨sendable_int n, _, by rw [Arg.chars, escaped_intDigits]; rfl⟩
  | text s =>
    rcases escape_eq index s.toList with ⟨h, he⟩ | ⟨h, e, he⟩
    · exact .inl ⟨h, _, by rw [writeArg, he]; rfl⟩
    · exact .inr ⟨hnot h, e, by rw [writeArg, he]; rfl⟩
  | secret p =>
    rcases escape_eq index p.expose.toList with ⟨h, he⟩ | ⟨h, e, he⟩
    · exact .inl ⟨h, _, by rw [writeArg, he]; rfl⟩
    · exact .inr ⟨hnot h, e, by rw [writeArg, he]; rfl⟩

theorem writeArgs_eq (index : Nat) (args : List Arg) :
    (∀ a ∈ args, Sendable a) ∧ (∃ shown, writeArgs index args =
      .ok ((args.map Arg.chars).flatMap fun t => ' ' :: escaped t, shown)) ∨
    ¬(∀ a ∈ args, Sendable a) ∧ ∃ e, writeArgs index args = .error e := by
  induction args generalizing index with
  | nil => exact .inl ⟨List.forall_mem_nil _, [], rfl⟩
  | cons a args ih =>
    rw [List.forall_mem_cons, writeArgs]
    rcases writeArg_eq index a with ⟨ha, s, hs⟩ | ⟨ha, e, he⟩
    · rcases ih (index + 1) with ⟨has, ss, hss⟩ | ⟨has, e, he⟩
      · exact .inl ⟨⟨ha, has⟩, _, by rw [hs, hss]; rfl⟩
      · exact .inr ⟨fun h => has h.2, e, by rw [hs, he]; rfl⟩
    · exact .inr ⟨fun h => ha h.1, e, by rw [he]; rfl⟩

/-- The words in front of the arguments are tokens too. -/
theorem head_append (seq : Option UInt32) {commandPrefix subcommand : String}
    (hp : isWord commandPrefix.toList = true) (hs : isWord subcommand.toList = true)
    (args : List Arg) :
    head seq commandPrefix.toList subcommand.toList ++
        (args.map Arg.chars).flatMap (fun t => ' ' :: escaped t) =
      spaced (tokens seq commandPrefix subcommand args) := by
  cases seq with
  | none => simp [head, tokens, spaced, escaped_of_isWord hp, escaped_of_isWord hs]
  | some n =>
    have hn : escaped (Text.digits n.toNat) = Text.digits n.toNat := escaped_intDigits n.toNat
    simp [head, tokens, spaced, escaped_of_isWord hp, escaped_of_isWord hs, hn]

end Command

section
variable {seq : Option UInt32} {commandPrefix subcommand : String} {args : List Arg}

/-- What can be written, and what it is then. -/
theorem encode_cases (seq : Option UInt32) (commandPrefix subcommand : String) (args : List Arg) :
    (Command.isWord commandPrefix.toList = true ∧ Command.isWord subcommand.toList = true ∧
      (∀ a ∈ args, Command.Sendable a)) ∧
      (∃ shown, encode seq commandPrefix subcommand args =
        .ok ⟨String.ofList (Command.spaced (Command.tokens seq commandPrefix subcommand args)),
          shown⟩) ∨
    ¬(Command.isWord commandPrefix.toList = true ∧ Command.isWord subcommand.toList = true ∧
      (∀ a ∈ args, Command.Sendable a)) ∧
        ∃ e, encode seq commandPrefix subcommand args = .error e := by
  unfold encode
  by_cases hp : Command.isWord commandPrefix.toList = true
  · by_cases hs : Command.isWord subcommand.toList = true
    · simp only [hp, hs, Bool.not_true, if_false, true_and, Bool.false_eq_true]
      rcases Command.writeArgs_eq 0 args with ⟨ha, shown, he⟩ | ⟨ha, e, he⟩
      · rw [he, ← Command.head_append seq hp hs]
        exact .inl ⟨ha, _, rfl⟩
      · rw [he]
        exact .inr ⟨ha, e, rfl⟩
    · exact .inr ⟨fun h => hs h.2.1, _, by simp [hp, hs]; rfl⟩
  · exact .inr ⟨fun h => hp h.1, _, by simp [hp]; rfl⟩

/-- A command can be written when its words are words and no argument ends the line. -/
theorem encode_eq_ok_iff : (∃ c, encode seq commandPrefix subcommand args = .ok c) ↔
    Command.isWord commandPrefix.toList = true ∧ Command.isWord subcommand.toList = true ∧
      ∀ a ∈ args, Command.Sendable a := by
  rcases encode_cases seq commandPrefix subcommand args with ⟨h, _, he⟩ | ⟨h, _, he⟩
  · exact ⟨fun _ => h, fun _ => ⟨_, he⟩⟩
  · exact ⟨fun ⟨c, hc⟩ => (by rw [he] at hc; cases hc), fun h' => (h h').elim⟩

/-- The line of a command is the written form of its tokens. -/
theorem encode_wire {c : EncodedCommand} (h : encode seq commandPrefix subcommand args = .ok c) :
    c.wire = String.ofList (Command.spaced (Command.tokens seq commandPrefix subcommand args)) := by
  rcases encode_cases seq commandPrefix subcommand args with ⟨_, _, he⟩ | ⟨_, _, he⟩
  · rw [he, Except.ok.injEq] at h
    rw [← h]
  · rw [he] at h
    cases h

/-- The line of a command splits into its tokens. -/
theorem tokenize_wire {c : EncodedCommand} (h : encode seq commandPrefix subcommand args = .ok c) :
    tokenize c.wire =
      .ok ((Command.tokens seq commandPrefix subcommand args).map String.ofList) := by
  rw [encode_wire h, tokenize_spaced]

end
end EfsControl
