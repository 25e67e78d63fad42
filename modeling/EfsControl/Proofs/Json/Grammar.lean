/-
# The grammar of JSON

What a JSON text may look like, whoever has written it: values of any shape
and depth, with blanks between all their parts. Every such value is read over
exactly, and what is written here is one.

Key definitions: `Spacing`, `IsValue`, `IsItems`, `IsFields`.
Key theorems: `IsValue.skip`, `skipAny_append`, `isValue_write`,
`isFields_write`.
-/
import EfsControl.Proofs.Json.Number
import EfsControl.Proofs.Json.Text
import Mathlib.Data.List.DropRight

namespace EfsControl
namespace Json

/-! ### Blanks -/

/-- A text of nothing but blanks. -/
def Blanks (cs : List Char) : Prop := ∀ c ∈ cs, isBlank c = true

theorem blanks_nil : Blanks [] := by simp [Blanks]

theorem skipBlanks_append {b : List Char} (h : Blanks b) (cs : List Char) :
    skipBlanks (b ++ cs) = skipBlanks cs := by
  rw [skipBlanks, List.dropWhile_append_of_pos h]
  rfl

theorem skipBlanks_cons {c : Char} (h : isBlank c = false) (cs : List Char) :
    skipBlanks (c :: cs) = c :: cs := List.dropWhile_cons_of_neg (by simp [h])

theorem skipBlanks_skipBlanks (cs : List Char) : skipBlanks (skipBlanks cs) = skipBlanks cs :=
  List.dropWhile_idempotent isBlank cs

/-- Blanks end a number. -/
theorem Blanks.ends {b : List Char} (h : Blanks b) {cs : List Char} (hc : Ends cs) :
    Ends (b ++ cs) := by
  cases b with
  | nil => exact hc
  | cons c b =>
    have hblank : isBlank c = true := h c List.mem_cons_self
    refine ends_cons ?_ _
    simp only [isBlank, Bool.or_eq_true, beq_iff_eq] at hblank
    simp only [List.mem_cons]
    tauto

/-- The blanks around the name and the value of a field. -/
structure Spacing where
  before : List Char
  afterName : List Char
  beforeValue : List Char
  after : List Char
  before_blank : Blanks before
  afterName_blank : Blanks afterName
  beforeValue_blank : Blanks beforeValue
  after_blank : Blanks after

/-- No blanks at all. -/
def Spacing.tight : Spacing := ⟨[], [], [], [], blanks_nil, blanks_nil, blanks_nil, blanks_nil⟩

/-- A field of an object. -/
def Spacing.field (b : Spacing) (name value : List Char) : List Char :=
  b.before ++ '"' :: (name ++ '"' :: (b.afterName ++ ':' :: (b.beforeValue ++ (value ++ b.after))))

/-- A field is longer than its name and its value. -/
theorem Spacing.length_le_field (b : Spacing) (name value : List Char) :
    name.length + value.length < (b.field name value).length := by
  simp only [field, List.length_append, List.length_cons]
  omega

/-! ### Values -/

mutual

/-- A value. -/
inductive IsValue : List Char → Prop
  | null : IsValue "null".toList
  | true : IsValue "true".toList
  | false : IsValue "false".toList
  | number {t : List Char} (h : IsNumber t) : IsValue t
  | text {t : List Char} (h : IsText t) : IsValue ('"' :: (t ++ ['"']))
  | emptyArray {b : List Char} (h : Blanks b) : IsValue ('[' :: (b ++ [']']))
  | array {t : List Char} (h : IsItems t) : IsValue ('[' :: (t ++ [']']))
  | emptyObject {b : List Char} (h : Blanks b) : IsValue ('\x7b' :: (b ++ ['\x7d']))
  | object {es : List (List Char × List Char)} {t : List Char} (h : IsFields es t) :
    IsValue ('\x7b' :: (t ++ ['\x7d']))

/-- The members of an array, with commas between them. -/
inductive IsItems : List Char → Prop
  | last {b v b' : List Char} (hb : Blanks b) (hv : IsValue v) (hb' : Blanks b') :
    IsItems (b ++ (v ++ b'))
  | more {b v b' t : List Char} (hb : Blanks b) (hv : IsValue v) (hb' : Blanks b')
    (h : IsItems t) : IsItems (b ++ (v ++ (b' ++ ',' :: t)))

/-- The fields of an object, with commas between them, and what stands in them: between the quotes
of their names, and their values. -/
inductive IsFields : List (List Char × List Char) → List Char → Prop
  | last {k v : List Char} (b : Spacing) (hk : IsText k) (hv : IsValue v) :
    IsFields [(k, v)] (b.field k v)
  | more {k v t : List Char} {es : List (List Char × List Char)} (b : Spacing) (hk : IsText k)
    (hv : IsValue v) (h : IsFields es t) : IsFields ((k, v) :: es) (b.field k v ++ ',' :: t)

end

/-- A value begins with a character that is no blank and ends nothing. -/
theorem IsValue.head {v : List Char} (h : IsValue v) :
    ∃ c cs, v = c :: cs ∧ isBlank c = Bool.false ∧ c ≠ ']' := by
  cases h with
  | number h =>
    obtain ⟨c, cs, rfl, hc⟩ := h.head
    exact ⟨c, cs, rfl, not_blank_of_beginsNumber hc, Text.ne_of_test hc (by decide)⟩
  | null | true | false => exact ⟨_, _, rfl, by decide, by decide⟩
  | text | emptyArray | array | emptyObject | object => exact ⟨_, _, rfl, by decide, by decide⟩

theorem IsValue.length_pos {v : List Char} (h : IsValue v) : 0 < v.length := by
  obtain ⟨c, cs, rfl, -⟩ := h.head
  exact Nat.zero_lt_succ _

/-! ### Reading over values -/

theorem skipValue_skipBlanks (fuel : Nat) (cs : List Char) :
    skipValue fuel (skipBlanks cs) = skipValue fuel cs := by
  cases fuel with
  | zero => simp only [skipValue]
  | succ fuel => simp only [skipValue, skipBlanks_skipBlanks]

theorem skipValue_blanks {b : List Char} (h : Blanks b) (fuel : Nat) (cs : List Char) :
    skipValue fuel (b ++ cs) = skipValue fuel cs := by
  rw [← skipValue_skipBlanks, skipBlanks_append h, skipValue_skipBlanks]

theorem skipItems_skipBlanks (fuel : Nat) (cs : List Char) :
    skipItems fuel (skipBlanks cs) = skipItems fuel cs := by
  cases fuel with
  | zero => simp only [skipItems]
  | succ fuel => simp only [skipItems, skipValue_skipBlanks]

theorem skipValue_text (fuel : Nat) (cs : List Char) :
    skipValue (fuel + 1) ('"' :: cs) = skipText cs := by
  rw [skipValue, skipBlanks_cons rfl]
  rfl

theorem skipValue_number {c : Char} (h : beginsNumber c = true) (fuel : Nat) (cs : List Char) :
    skipValue (fuel + 1) (c :: cs) = skipNumber (c :: cs) := by
  have hne {d : Char} (hd : beginsNumber d = false) : ¬ c = d := Text.ne_of_test h hd
  rw [skipValue, skipBlanks_cons (not_blank_of_beginsNumber h)]
  simp only [hne (by decide : beginsNumber 'n' = false), hne (by decide : beginsNumber 't' = false),
    hne (by decide : beginsNumber 'f' = false), h, if_true, if_false]

theorem skipValue_bracket (fuel : Nat) (cs : List Char) : skipValue (fuel + 1) ('[' :: cs) =
    match skipBlanks cs with
    | ']' :: rest => .ok rest
    | [] => .error .truncated
    | cs => skipItems fuel cs := by
  rw [skipValue, skipBlanks_cons rfl]
  rfl

theorem skipValue_brace (fuel : Nat) (cs : List Char) : skipValue (fuel + 1) ('\x7b' :: cs) =
    match skipBlanks cs with
    | '\x7d' :: rest => .ok rest
    | cs => skipFields fuel cs := by
  rw [skipValue, skipBlanks_cons rfl]
  rfl

/-- The members of an array begin with a value. -/
theorem IsItems.head {t : List Char} (h : IsItems t) (more : List Char) :
    ∃ c cs, skipBlanks (t ++ more) = c :: cs ∧ c ≠ ']' := by
  have first {b v : List Char} (hb : Blanks b) (hv : IsValue v) (cs : List Char) :
      ∃ c ds, skipBlanks (b ++ (v ++ cs)) = c :: ds ∧ c ≠ ']' := by
    obtain ⟨c, ds, rfl, hblank, hc⟩ := hv.head
    exact ⟨c, ds ++ cs, by rw [skipBlanks_append hb, List.cons_append, skipBlanks_cons hblank], hc⟩
  cases h with
  | last hb hv =>
    simp only [List.append_assoc]
    exact first hb hv _
  | more hb hv =>
    simp only [List.append_assoc]
    exact first hb hv _

/-- The fields of an object begin with a name. -/
theorem IsFields.head {es : List (List Char × List Char)} {t : List Char} (h : IsFields es t)
    (more : List Char) : ∃ cs, skipBlanks (t ++ more) = '"' :: cs := by
  have first (b : Spacing) (k v cs : List Char) :
      ∃ ds, skipBlanks (b.field k v ++ cs) = '"' :: ds := by
    rw [Spacing.field, List.append_assoc, skipBlanks_append b.before_blank, List.cons_append,
      skipBlanks_cons rfl]
    exact ⟨_, rfl⟩
  cases h with
  | last b => exact first b _ _ _
  | more b =>
    rw [List.append_assoc]
    exact first b _ _ _

/-- Each field takes up a character at least. -/
theorem IsFields.length_le {es : List (List Char × List Char)} {t : List Char} :
    IsFields es t → es.length ≤ t.length
  | .last b _ _ => by
    have := b.length_le_field
    simp only [List.length_singleton]
    exact Nat.lt_of_le_of_lt (Nat.zero_le _) (this _ _)
  | .more b _ _ h => by
    have := h.length_le
    simp only [List.length_append, List.length_cons]
    omega

/-- This is so without the blanks in front of the first one. -/
theorem IsFields.length_le_skip {es : List (List Char × List Char)} {t : List Char}
    (h : IsFields es t) (more : List Char) : es.length ≤ (skipBlanks (t ++ more)).length := by
  obtain ⟨cs, hcs⟩ := h.head more
  cases h with
  | last =>
    rw [hcs]
    exact Nat.succ_le_succ (Nat.zero_le _)
  | more b _ _ h =>
    have := h.length_le
    simp only [Spacing.field, List.append_assoc, List.cons_append]
    rw [skipBlanks_append b.before_blank, skipBlanks_cons rfl]
    simp only [List.length_cons, List.length_append]
    omega

/-- An array with members is read over as they are. -/
theorem skipValue_array {t : List Char} (h : IsItems t) (fuel : Nat) (more : List Char) :
    skipValue (fuel + 1) ('[' :: (t ++ more)) = skipItems fuel (t ++ more) := by
  obtain ⟨c, cs, hcs, hc⟩ := h.head more
  rw [skipValue_bracket, ← skipItems_skipBlanks, hcs]
  split
  · rename_i he
    exact absurd (List.cons.inj he).1 hc
  · rename_i he
    cases he
  · rfl

/-- An object with fields is read over as they are. -/
theorem skipValue_object {es : List (List Char × List Char)} {t : List Char} (h : IsFields es t)
    (fuel : Nat) (more : List Char) :
    skipValue (fuel + 1) ('\x7b' :: (t ++ more)) = skipFields fuel (t ++ more) := by
  have hskip (cs : List Char) : skipFields fuel (skipBlanks cs) = skipFields fuel cs := by
    cases fuel with
    | zero => simp only [skipFields]
    | succ fuel => simp only [skipFields, skipBlanks_skipBlanks]
  obtain ⟨cs, hcs⟩ := h.head more
  rw [skipValue_brace, ← hskip, hcs]
  rfl

/-- Members are read over once the first of them is. -/
theorem skipItems_of_skipValue {fuel : Nat} {cs b : List Char} (hb : Blanks b) {c : Char}
    {rest : List Char} (h : skipValue fuel cs = .ok (b ++ c :: rest)) (hc : c = ']' ∨ c = ',') :
    skipItems (fuel + 1) cs = if c = ']' then .ok rest else skipItems fuel rest := by
  have hnext : skipBlanks (b ++ c :: rest) = c :: rest := by
    rw [skipBlanks_append hb, skipBlanks_cons (by rcases hc with rfl | rfl <;> rfl)]
  rw [skipItems, h]
  simp only [bind, Except.bind, hnext]
  rcases hc with rfl | rfl <;> rfl

/-- Fields are read over once the name and the value of the first of them are. -/
theorem skipFields_of_skipValue {fuel : Nat} (b : Spacing) {k v : List Char} (hk : IsText k)
    {c : Char} {rest : List Char}
    (h : skipValue fuel (v ++ (b.after ++ c :: rest)) = .ok (b.after ++ c :: rest))
    (hc : c = '\x7d' ∨ c = ',') :
    skipFields (fuel + 1) (b.field k v ++ c :: rest) =
      if c = '\x7d' then .ok rest else skipFields fuel rest := by
  have hnext : skipBlanks (b.after ++ c :: rest) = c :: rest := by
    rw [skipBlanks_append b.after_blank,
      skipBlanks_cons (by rcases hc with rfl | rfl <;> rfl)]
  simp only [Spacing.field, List.append_assoc, List.cons_append]
  rw [skipFields, skipBlanks_append b.before_blank, skipBlanks_cons rfl]
  simp only [bind, Except.bind, hk.skip]
  rw [skipBlanks_append b.afterName_blank, skipBlanks_cons rfl]
  simp only [skipValue_blanks b.beforeValue_blank, h, hnext]
  rcases hc with rfl | rfl <;> rfl

mutual

/-- A value is read over up to what follows it. -/
theorem IsValue.skip {v : List Char} (fuel : Nat) (hf : v.length ≤ fuel + 1) (rest : List Char)
    (hr : Ends rest) : IsValue v → skipValue (fuel + 1) (v ++ rest) = .ok rest
  | .null => rfl
  | .true => rfl
  | .false => rfl
  | .number h => by
    obtain ⟨n, hn⟩ := h.scan hr
    obtain ⟨c, cs, rfl, hc⟩ := h.head
    rw [List.cons_append] at hn
    rw [List.cons_append, skipValue_number hc, skipNumber, hn]
  | .text h => by
    simp only [List.cons_append, List.append_assoc, List.nil_append]
    rw [skipValue_text, h.skip]
  | .emptyArray h => by
    simp only [List.cons_append, List.append_assoc, List.nil_append]
    rw [skipValue_bracket, skipBlanks_append h, skipBlanks_cons rfl]
    rfl
  | .array h => by
    simp only [List.length_cons, List.length_append, List.length_nil] at hf
    simp only [List.cons_append, List.append_assoc, List.nil_append]
    rw [skipValue_array h]
    exact IsItems.skip fuel (by omega) rest h
  | .emptyObject h => by
    simp only [List.cons_append, List.append_assoc, List.nil_append]
    rw [skipValue_brace, skipBlanks_append h, skipBlanks_cons rfl]
    rfl
  | .object h => by
    simp only [List.length_cons, List.length_append, List.length_nil] at hf
    simp only [List.cons_append, List.append_assoc, List.nil_append]
    rw [skipValue_object h]
    exact IsFields.skip fuel (by omega) rest h

/-- The members of an array are read over up to the bracket that ends it. -/
theorem IsItems.skip {t : List Char} (fuel : Nat) (hf : t.length < fuel) (rest : List Char) :
    IsItems t → skipItems fuel (t ++ ']' :: rest) = .ok rest
  | @IsItems.last b v b' hb hv hb' => by
    simp only [List.length_append] at hf
    have hpos := hv.length_pos
    obtain ⟨fuel, rfl⟩ : ∃ k, fuel = k + 2 := Nat.exists_eq_add_of_le' (by omega)
    have hends : Ends (b' ++ ']' :: rest) := hb'.ends (ends_cons (by simp) _)
    have hvalue := IsValue.skip fuel (by omega) _ hends hv
    simp only [List.append_assoc]
    exact skipItems_of_skipValue hb' ((skipValue_blanks hb _ _).trans hvalue) (.inl rfl)
  | @IsItems.more b v b' t hb hv hb' h => by
    simp only [List.length_append, List.length_cons] at hf
    have hpos := hv.length_pos
    obtain ⟨fuel, rfl⟩ : ∃ k, fuel = k + 2 := Nat.exists_eq_add_of_le' (by omega)
    have hends : Ends (b' ++ ',' :: (t ++ ']' :: rest)) := hb'.ends (ends_cons (by simp) _)
    have hvalue := IsValue.skip fuel (by omega) _ hends hv
    have hmore := IsItems.skip (fuel + 1) (by omega) rest h
    simp only [List.append_assoc, List.cons_append]
    exact (skipItems_of_skipValue hb' ((skipValue_blanks hb _ _).trans hvalue) (.inr rfl)).trans
      hmore

/-- The fields of an object are read over up to the brace that ends it. -/
theorem IsFields.skip {es : List (List Char × List Char)} {t : List Char} (fuel : Nat)
    (hf : t.length < fuel) (rest : List Char) :
    IsFields es t → skipFields fuel (t ++ '\x7d' :: rest) = .ok rest
  | @IsFields.last k v b hk hv => by
    have hlen := b.length_le_field k v
    have hpos := hv.length_pos
    obtain ⟨fuel, rfl⟩ : ∃ k, fuel = k + 2 := Nat.exists_eq_add_of_le' (by omega)
    have hends : Ends (b.after ++ '\x7d' :: rest) := b.after_blank.ends (ends_cons (by simp) _)
    exact skipFields_of_skipValue b hk (IsValue.skip fuel (by omega) _ hends hv) (.inl rfl)
  | @IsFields.more k v t es b hk hv h => by
    simp only [List.length_append, List.length_cons] at hf
    have hlen := b.length_le_field k v
    have hpos := hv.length_pos
    obtain ⟨fuel, rfl⟩ : ∃ k, fuel = k + 2 := Nat.exists_eq_add_of_le' (by omega)
    have hends : Ends (b.after ++ ',' :: (t ++ '\x7d' :: rest)) :=
      b.after_blank.ends (ends_cons (by simp) _)
    have hmore := IsFields.skip (fuel + 1) (by omega) rest h
    rw [List.append_assoc, List.cons_append]
    have hvalue := IsValue.skip fuel (by omega) _ hends hv
    exact (skipFields_of_skipValue b hk hvalue (.inr rfl)).trans hmore

end

/-- A value behind blanks is read over, whatever follows it. -/
theorem skipAny_append {b v rest : List Char} (hb : Blanks b) (hv : IsValue v) (hr : Ends rest) :
    skipAny (b ++ (v ++ rest)) = .ok rest := by
  rw [skipAny, skipValue_blanks hb]
  refine IsValue.skip _ ?_ rest hr hv
  simp only [List.length_append]
  omega

/-! ### What is written -/

theorem isNumber_writeNumber (mantissa exponent : Int) :
    IsNumber (Value.writeNumber mantissa exponent) := by
  have hparts (n : Int) : ∃ sign ds, Text.intDigits n = sign ++ ds ∧ (sign = [] ∨ sign = ['-']) ∧
      IsWhole ds := by
    cases n with
    | ofNat k => exact ⟨[], _, rfl, .inl rfl, isWhole_digits k⟩
    | negSucc k => exact ⟨['-'], _, rfl, .inr rfl, isWhole_digits (k + 1)⟩
  by_cases he : exponent = 0
  · rw [Value.writeNumber, if_pos he]
    exact isNumber_intDigits mantissa
  · obtain ⟨sign, ds, hm, hs, hds⟩ := hparts mantissa
    obtain ⟨sign', es, he', hs', hes⟩ := hparts exponent
    have hmark : IsExponent ('e' :: (sign' ++ es)) := .digits rfl (hs'.imp_right .inl) hes.1
    have h := IsNumber.mk hs hds .none hmark
    rw [Value.writeNumber, if_neg he, hm, he', List.append_assoc]
    exact h

theorem Spacing.field_tight (s v : List Char) :
    Spacing.tight.field (s.flatMap escapeChar) v = writeText s ++ ':' :: v := by
  simp [field, tight, writeText]

mutual

/-- What is written of a value is one. -/
theorem isValue_write : (v : Value) → IsValue v.write
  | .null => .null
  | .boolean Bool.true => .true
  | .boolean Bool.false => .false
  | .number mantissa exponent => .number (isNumber_writeNumber mantissa exponent)
  | .text s => .text (spells_escaped s).isText
  | .array [] => .emptyArray blanks_nil
  | .array (v :: vs) => .array (isItems_write (v :: vs) (List.cons_ne_nil v vs))
  | .object [] => .emptyObject blanks_nil
  | .object (f :: fs) => .object (isFields_write (f :: fs) (List.cons_ne_nil f fs))

theorem isItems_write : (vs : List Value) → vs ≠ [] → IsItems (Value.writeItems vs)
  | [], h => absurd rfl h
  | [v], _ => by
    have h := IsItems.last blanks_nil (isValue_write v) blanks_nil
    rwa [List.nil_append, List.append_nil] at h
  | v :: w :: vs, _ =>
    .more blanks_nil (isValue_write v) blanks_nil (isItems_write (w :: vs) (List.cons_ne_nil w vs))

/-- The written fields of an object, and what stands in them. -/
theorem isFields_write : (fs : List (List Char × Value)) → fs ≠ [] →
    IsFields (fs.map fun (k, v) => (k.flatMap escapeChar, v.write)) (Value.writeFields fs)
  | [], h => absurd rfl h
  | [(k, v)], _ => by
    have h := IsFields.last .tight (spells_escaped k).isText (isValue_write v)
    rwa [Spacing.field_tight] at h
  | (k, v) :: f :: fs, _ => by
    have h := IsFields.more .tight (spells_escaped k).isText (isValue_write v)
      (isFields_write (f :: fs) (List.cons_ne_nil f fs))
    rwa [Spacing.field_tight] at h

end

end Json
end EfsControl
