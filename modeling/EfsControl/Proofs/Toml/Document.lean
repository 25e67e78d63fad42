/-
# Documents come back

A document of tables has a header, an entry or nothing on each of its lines. The
headers and entries are read as the statements that they are, whatever lines
come after them, and so the whole document is read as its tables.

Key definitions: `IsBare`, `Shows`, `Lines`.
Key theorems: `shows_writeText`, `shows_digits`, `readStatement_header`,
`readStatement_entry`, `Lines.read`, `Lines.read?`.
-/
import EfsControl.Proofs.Toml.Quoted
import EfsControl.Proofs.Toml.Scalar
import EfsControl.Proofs.Toml.Table
import EfsControl.Toml.Document

namespace EfsControl
namespace Toml

/-! ### Values at the end of a line -/

theorem skipSpaces_cons {c : Char} (h : isSpace c = false) (cs : List Char) :
    skipSpaces (c :: cs) = c :: cs := List.dropWhile_cons_of_neg (by simp [h])

/-- At the end of a line this text is read as the value. -/
structure Shows (t : List Char) (v : Value) : Prop where
  /-- It begins with no space. -/
  front : ∃ c cs, t = c :: cs ∧ isSpace c = false
  read : ∀ fuel depth rest, readValue (fuel + 1) depth (t ++ '\n' :: rest) = some (v, '\n' :: rest)

theorem Shows.skipSpaces {t : List Char} {v : Value} (h : Shows t v) (rest : List Char) :
    skipSpaces (t ++ rest) = t ++ rest := by
  obtain ⟨c, cs, rfl, hc⟩ := h.front
  exact skipSpaces_cons hc _

/-- A text is written with a mark in front. -/
theorem writeText_front (s : List Char) : ∃ mark cs, writeText s = mark :: cs ∧ IsMark mark := by
  unfold writeText
  cases Form.ofText s with
  | basic => exact ⟨_, _, rfl, .inl rfl⟩
  | literal => exact ⟨_, _, rfl, .inr rfl⟩
  | longBasic => exact ⟨_, _, rfl, .inl rfl⟩
  | longLiteral => exact ⟨_, _, rfl, .inr rfl⟩

theorem shows_writeText (s : List Char) : Shows (writeText s) (.text s) := by
  constructor
  · obtain ⟨mark, cs, hs, hm⟩ := writeText_front s
    exact ⟨mark, cs, hs, by rcases hm with rfl | rfl <;> rfl⟩
  · intro fuel depth rest
    have hline : ∀ mark, IsMark mark → ('\n' :: rest).head? ≠ some mark :=
      fun mark hm he => hm.ne_lineFeed (Option.some.inj he)
    rw [readValue.eq_def]
    simp only [readText?_writeText s hline, Option.map_some]

/-- Unquoted values are read as what they stand for. -/
theorem shows_of_readScalar? {t : List Char} {v : Value} (ht : t ≠ [])
    (hall : t.all isScalarChar = true) (hv : readScalar? t = some v) : Shows t v := by
  have hs : ∀ c ∈ t, isScalarChar c = true := List.all_eq_true.mp hall
  obtain ⟨c, cs, rfl⟩ := List.exists_cons_of_ne_nil ht
  have hc : isScalarChar c = true := hs c List.mem_cons_self
  have hne {d : Char} (hd : isScalarChar d = false) : c ≠ d := Text.ne_of_test hc hd
  constructor
  · refine ⟨c, cs, rfl, ?_⟩
    simp [isSpace, hne (d := ' ') rfl, hne (d := '\t') rfl]
  · intro fuel depth rest
    have hquote : readText? (c :: cs ++ '\n' :: rest) = none := by
      rw [List.cons_append]
      unfold readText?
      split
      · exact absurd (List.cons.inj ‹_›).1 (hne rfl)
      · exact absurd (List.cons.inj ‹_›).1 (hne rfl)
      · exact absurd (List.cons.inj ‹_›).1 (hne rfl)
      · exact absurd (List.cons.inj ‹_›).1 (hne rfl)
      · rfl
    rw [readValue.eq_def]
    simp only [hquote]
    split
    · exact absurd (List.cons.inj ‹_›).1 (hne rfl)
    · exact absurd (List.cons.inj ‹_›).1 (hne rfl)
    · exact absurd (List.cons.inj ‹_›).1 (hne rfl)
    · exact absurd (List.cons.inj ‹_›).1 (hne rfl)
    · rw [takeScalar_append hs]
      simp only [hv, Option.map_some]

theorem shows_digits (n : Nat) : Shows (Text.digits n) (.integer n) := by
  refine shows_of_readScalar? (Text.digits_ne_nil n) ?_ (readScalar?_digits n)
  rw [List.all_eq_true]
  intro c hc
  have hdigit : c.isDigit = true := Text.isDigit_of_mem_digits hc
  simp [isScalarChar, Char.isAlphanum, hdigit]

/-! ### Keys -/

/-- The key needs no quotes. -/
def IsBare (key : List Char) : Prop := key ≠ [] ∧ ∀ c ∈ key, isKeyChar c = true

instance : DecidablePred IsBare := fun key =>
  decidable_of_iff (key ≠ [] ∧ key.all isKeyChar = true) (by rw [IsBare, List.all_eq_true])

theorem isSpace_of_isKeyChar {c : Char} (h : isKeyChar c = true) : isSpace c = false := by
  have hspace : c ≠ ' ' := Text.ne_of_test h rfl
  have htab : c ≠ '\t' := Text.ne_of_test h rfl
  simp [isSpace, hspace, htab]

theorem IsBare.front {key : List Char} (h : IsBare key) :
    ∃ c cs, key = c :: cs ∧ isKeyChar c = true := by
  obtain ⟨c, cs, rfl⟩ := List.exists_cons_of_ne_nil h.1
  exact ⟨c, cs, rfl, h.2 c List.mem_cons_self⟩

/-- What begins with a key begins with none of the characters that no key has. -/
theorem IsBare.append_ne {key : List Char} (h : IsBare key) {d : Char} (hd : isKeyChar d = false)
    (rest cs : List Char) : key ++ rest ≠ d :: cs := by
  obtain ⟨c, key, rfl, hc⟩ := h.front
  intro he
  exact Text.ne_of_test hc hd (List.cons.inj he).1

/-- A key without quotes is read up to the first character that no key has. -/
theorem readKey_append {key : List Char} (h : IsBare key) {d : Char} (hd : isKeyChar d = false)
    (rest : List Char) : readKey (key ++ d :: rest) = some (key, d :: rest) := by
  have hend : ∀ c ∈ (d :: rest).head?, isKeyChar c = false := by
    rintro c ⟨⟩
    exact hd
  have hkey : (key ++ d :: rest).takeWhile isKeyChar = key := Text.takeWhile_run h.2 hend
  have hrest : (key ++ d :: rest).dropWhile isKeyChar = d :: rest := Text.dropWhile_run h.2 hend
  rw [readKey.eq_3 _ (h.append_ne rfl _) (h.append_ne rfl _), hkey, hrest]
  split
  · exact absurd rfl h.1
  · rfl

/-- A key alone is a path, together with the spaces after it. -/
theorem readPath_append {key : List Char} (h : IsBare key) {d e : Char} {cs rest : List Char}
    (hd : isKeyChar d = false) (hskip : skipSpaces (d :: cs) = e :: rest) (he : e ≠ '.')
    (fuel : Nat) : readPath (fuel + 1) (key ++ d :: cs) = some (⟨[], key⟩, e :: rest) := by
  have hfront : skipSpaces (key ++ d :: cs) = key ++ d :: cs := by
    obtain ⟨c, cs, rfl, hc⟩ := h.front
    exact skipSpaces_cons (isSpace_of_isKeyChar hc) _
  simp only [readPath, hfront, readKey_append h hd, hskip]
  split
  · exact absurd (List.cons.inj ‹_›).1 he
  · rfl

/-! ### Lines -/

/-- A header on a line of its own begins a table. -/
theorem readStatement_header {name : List Char} (h : IsBare name) (fuel : Nat)
    (rest : List Char) :
    readStatement (fuel + 1) ('[' :: (name ++ ']' :: '\n' :: rest)) =
      some (.header ⟨[], name⟩, rest) := by
  have hbracket : isKeyChar ']' = false := rfl
  have hskip : skipSpaces (']' :: '\n' :: rest) = ']' :: '\n' :: rest := rfl
  have hpath := readPath_append h hbracket hskip (by decide) fuel
  rw [readStatement.eq_2 _ _ (h.append_ne rfl _)]
  simp only [hpath, Option.bind_eq_bind, Option.bind_some]
  rfl

/-- A key and its value on a line of their own are an entry. -/
theorem readStatement_entry {key t : List Char} {v : Value} (h : IsBare key) (hv : Shows t v)
    (fuel : Nat) (rest : List Char) :
    readStatement (fuel + 2) (key ++ ' ' :: '=' :: ' ' :: (t ++ '\n' :: rest)) =
      some (.entry ⟨[], key⟩ v, rest) := by
  have hspace : isKeyChar ' ' = false := rfl
  have hequals : skipSpaces (' ' :: '=' :: ' ' :: (t ++ '\n' :: rest)) =
      '=' :: ' ' :: (t ++ '\n' :: rest) := rfl
  have hpath := readPath_append h hspace hequals (by decide) (fuel + 1)
  have hskip : skipSpaces (' ' :: (t ++ '\n' :: rest)) = t ++ '\n' :: rest := hv.skipSpaces _
  have hfield : readField (fuel + 2) nestingLimit
      (key ++ ' ' :: '=' :: ' ' :: (t ++ '\n' :: rest)) =
        some ((⟨[], key⟩, v), '\n' :: rest) := by
    simp only [readField, hpath, hskip, hv.read, Option.bind_eq_bind, Option.bind_some, pure]
  rw [readStatement.eq_3 _ _ (fun _ => h.append_ne rfl _ _) (h.append_ne rfl _)]
  simp only [hfield, Option.bind_eq_bind, Option.bind_some]
  rfl

/-- Lines with a header, an entry or nothing on each, and the statements on them. -/
inductive Lines : List Char → List Statement → Prop
  | nil : Lines [] []
  | empty {cs : List Char} {ss : List Statement} (h : Lines cs ss) : Lines ('\n' :: cs) ss
  | header {cs name : List Char} {ss : List Statement} (hname : IsBare name) (h : Lines cs ss) :
    Lines ('[' :: (name ++ ']' :: '\n' :: cs)) (.header ⟨[], name⟩ :: ss)
  | entry {cs key t : List Char} {v : Value} {ss : List Statement} (hkey : IsBare key)
    (hv : Shows t v) (h : Lines cs ss) :
    Lines (key ++ ' ' :: '=' :: ' ' :: (t ++ '\n' :: cs)) (.entry ⟨[], key⟩ v :: ss)

/-- What begins a statement is not skipped. -/
theorem skipGap_cons {c : Char} (h : c = '[' ∨ isKeyChar c = true) (cs : List Char) :
    skipGap false (c :: cs) = some (c :: cs) := by
  have hne {d : Char} (hd : isKeyChar d = false) (hbracket : '[' ≠ d) : c ≠ d := by
    rcases h with rfl | h
    · exact hbracket
    · exact Text.ne_of_test h hd
  have hreturn : c ≠ '\r' := hne rfl (by decide)
  have hline : c ≠ '\n' := hne rfl (by decide)
  have hspace : isSpace c = false := by
    rcases h with rfl | h
    · rfl
    · exact isSpace_of_isKeyChar h
  have hcomment : c ≠ '#' := hne rfl (by decide)
  rw [skipGap.eq_3 _ _ _ (fun _ he => absurd he hreturn)]
  simp [hline, hspace, hcomment]

theorem readStatements_cons {c : Char} {cs rest : List Char} {s : Statement} {fuel : Nat}
    (hc : c = '[' ∨ isKeyChar c = true) (h : readStatement fuel (c :: cs) = some (s, rest)) :
    readStatements (fuel + 1) (c :: cs) = (readStatements fuel rest).map (s :: ·) := by
  rw [readStatements, skipGap_cons hc]
  simp only [h]

/-- The statements of lines are read one after the other. -/
theorem Lines.read {cs : List Char} {ss : List Statement} (h : Lines cs ss) {fuel : Nat}
    (hfuel : cs.length < fuel) : readStatements fuel cs = some ss := by
  -- Every statement takes up a character at least, so the length bounds the statements.
  induction h generalizing fuel with
  | nil =>
    obtain ⟨fuel, rfl⟩ : ∃ k, fuel = k + 1 := ⟨fuel - 1, by omega⟩
    rfl
  | @empty cs ss h ih =>
    obtain ⟨fuel, rfl⟩ : ∃ k, fuel = k + 1 := ⟨fuel - 1, by omega⟩
    have hskip : skipGap false ('\n' :: cs) = skipGap false cs := rfl
    have hlength : cs.length < fuel + 1 := Nat.lt_of_succ_lt hfuel
    have hread := ih hlength
    rw [readStatements, hskip]
    rwa [readStatements] at hread
  | @header cs name ss hname h ih =>
    simp only [List.length_cons, List.length_append] at hfuel
    obtain ⟨fuel, rfl⟩ : ∃ k, fuel = k + 2 := ⟨fuel - 2, by omega⟩
    rw [readStatements_cons (.inl rfl) (readStatement_header hname fuel cs), ih (by omega)]
    rfl
  | @entry cs key t v ss hkey hv h ih =>
    simp only [List.length_cons, List.length_append] at hfuel
    obtain ⟨fuel, rfl⟩ : ∃ k, fuel = k + 3 := ⟨fuel - 3, by omega⟩
    have hread := readStatement_entry hkey hv fuel cs
    obtain ⟨c, key, rfl, hc⟩ := hkey.front
    rw [List.cons_append] at hread ⊢
    rw [readStatements_cons (.inr hc) hread, ih (by omega)]
    rfl

/-- Lines that are the statements of tables are read as these tables. -/
theorem Lines.read? {c : Char} {cs : List Char} {tables : List Table}
    (h : Lines (c :: cs) (tables.flatMap Table.statements)) (hmark : c ≠ '\ufeff')
    (hnames : (tables.map (·.name)).Nodup) (hkeys : ∀ t ∈ tables, (keys t.entries).Nodup) :
    read? (c :: cs) = some (tables.map Table.entry) := by
  have hdrop : dropMark (c :: cs) = c :: cs :=
    dropMark.eq_2 _ fun _ he => hmark (List.cons.inj he).1
  rw [Toml.read?]
  simp only [hdrop]
  rw [h.read (by omega), Option.bind_some, ofStatements_tables hnames hkeys]

end Toml
end EfsControl
