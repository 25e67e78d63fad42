/-
# Records come back

A record is given by an object that has each of its fields once, in any order
and with undeclared ones among them; a field with a default may be missing.
Each value that a field may hold is read from its written form, and values
under undeclared names are read over. An object that has a field twice, or
lacks one without a default, gives no record.

Key definitions: `FieldKind.Holds`, `IsObject`, `isDeclared`, `declared`, `Gives`.
Key theorems: `readField_write`, `skipAny_of_readField`, `readRecord_gives`,
`readRecord_ok`.
-/
import EfsControl.Proofs.Json.Grammar
import Mathlib.Data.List.Nodup

namespace EfsControl
namespace Json

/-! ### Values -/

/-- A value that a field of a kind may hold. The bounds of numbers are those of at most twenty
digits. -/
def FieldKind.Holds : FieldKind → FieldValue → Prop
  | .text, .text _ | .secret, .secret _ | .flag, .flag _ => True
  | .number least greatest, .number n => least ≤ n ∧ n ≤ greatest ∧ n.natAbs < 10 ^ 20
  | _, _ => False

theorem readTextValue_writeText (s : String) (rest : List Char) :
    readTextValue readText (writeText s.toList ++ rest) = .ok (s, rest) := by
  rw [writeText_append, readTextValue, skipBlanks_cons rfl]
  simp only [(spells_escaped s.toList).read, Except.map, String.ofList_toList]

theorem readFlag_write (b : Bool) (rest : List Char) :
    readFlag readText ((Value.boolean b).write ++ rest) = .ok (b, rest) := by
  cases b <;> simp [Value.write, readFlag, skipBlanks, isBlank, readWord, Except.map]

/-- What a field holds is read from its written form, up to what follows it. -/
theorem readField_write {kind : FieldKind} {v : FieldValue} (h : kind.Holds v) {rest : List Char}
    (hr : Ends rest) : readField readText kind (v.toJson.write ++ rest) = .ok (v, rest) := by
  cases kind with
  | text =>
    cases v with
    | text s =>
      rw [readField, FieldValue.toJson, Value.write, readTextValue_writeText]
      rfl
    | _ => exact h.elim
  | secret =>
    cases v with
    | secret p =>
      rw [readField, FieldValue.toJson, Value.write, readTextValue_writeText]
      rfl
    | _ => exact h.elim
  | flag =>
    cases v with
    | flag b =>
      rw [readField, FieldValue.toJson, readFlag_write]
      rfl
    | _ => exact h.elim
  | number least greatest =>
    cases v with
    | number n =>
      have hwrite : (FieldValue.number n).toJson.write = Text.intDigits n := by
        rw [FieldValue.toJson, Value.integer, Value.write, Value.writeNumber, if_pos rfl]
      rw [readField, hwrite, readInteger_intDigits h.1 h.2.1 h.2.2 hr]
      rfl
    | _ => exact h.elim

theorem readField_blanks {b : List Char} (h : Blanks b) (kind : FieldKind) (cs : List Char) :
    readField readText kind (b ++ cs) = readField readText kind cs := by
  cases kind <;> simp only [readField, readTextValue, readFlag, readInteger, skipBlanks_append h]

/-! ### What is read can be read over -/

theorem skipAny_of_readTextValue {cs rest : List Char} {s : String}
    (h : readTextValue readText cs = .ok (s, rest)) : skipAny cs = .ok rest := by
  unfold readTextValue at h
  split at h
  · cases h
  · rename_i more hq
    obtain ⟨x, hx, he⟩ := ok_of_map h
    cases he
    rw [skipAny, ← skipValue_skipBlanks, hq, skipValue_text, skipText_of_readText hx]
  · cases h

theorem skipAny_of_readFlag {cs rest : List Char} {b : Bool}
    (h : readFlag readText cs = .ok (b, rest)) : skipAny cs = .ok rest := by
  unfold readFlag at h
  split at h
  · cases h
  · rename_i more ht
    obtain ⟨r, hr, he⟩ := ok_of_map h
    cases he
    rw [skipAny, ← skipValue_skipBlanks, ht, skipValue, skipBlanks_cons rfl]
    exact hr
  · rename_i more hf
    obtain ⟨r, hr, he⟩ := ok_of_map h
    cases he
    rw [skipAny, ← skipValue_skipBlanks, hf, skipValue, skipBlanks_cons rfl]
    exact hr
  · cases h

theorem scanNumber_of_readNumber {cs rest : List Char} {n : Number}
    (h : readNumber cs = .ok (n, rest)) : scanNumber cs = .ok (n, rest) := by
  unfold readNumber at h
  cases hs : scanNumber cs with
  | error f =>
    rw [hs] at h
    cases h
  | ok x =>
    rw [hs] at h
    simp only [bind, Except.bind] at h
    split at h
    · cases h
    · cases h
      rfl

theorem skipAny_of_readInteger {least greatest n : Int} {cs rest : List Char}
    (h : readInteger readText least greatest cs = .ok (n, rest)) : skipAny cs = .ok rest := by
  unfold readInteger at h
  split at h
  · cases h
  · rename_i c more hc
    split at h
    · rename_i hb
      split at h
      · cases h
      · rename_i m more' hread
        have hmore : more' = rest := by
          split at h
          · split at h
            · cases h
              rfl
            · cases h
          · cases h
        rw [skipAny, ← skipValue_skipBlanks, hc, skipValue_number hb, skipNumber,
          scanNumber_of_readNumber hread, hmore]
    · cases h

/-- What is read as the value of a field can be read over. -/
theorem skipAny_of_readField {kind : FieldKind} {cs rest : List Char} {v : FieldValue}
    (h : readField readText kind cs = .ok (v, rest)) : skipAny cs = .ok rest := by
  cases kind with
  | text | secret =>
    obtain ⟨x, hx, he⟩ := ok_of_map h
    cases he
    exact skipAny_of_readTextValue hx
  | flag =>
    obtain ⟨x, hx, he⟩ := ok_of_map h
    cases he
    exact skipAny_of_readFlag hx
  | number least greatest =>
    obtain ⟨x, hx, he⟩ := ok_of_map h
    cases he
    exact skipAny_of_readInteger hx

/-! ### One field -/

/-- Whether a name is that of a declared field. -/
def isDeclared (fields : List Field) (name : String) : Bool := fields.any (·.name == name)

/-- The names in an object that are those of declared fields. -/
def declared (fields : List Field) (es : List (String × List Char)) : List String :=
  (es.map (·.1)).filter (isDeclared fields)

/-- What has been found after a name: a value for the first of a declared name, and otherwise what
had been found before. -/
def Takes (fields : List Field) (found : Found) (name : String) (found' : Found) : Prop :=
  if isDeclared fields name then found.lookup name = none ∧ ∃ x, found' = (name, x) :: found
  else found' = found

section
variable {fields : List Field} {found found' : Found} {f : Field} {name : String}
  {v rest rest' : List Char}

/-- A declared field is found by its name. -/
theorem find?_name (hn : (fields.map (·.name)).Nodup) (hf : f ∈ fields) :
    fields.find? (·.name == f.name) = some f := by
  obtain ⟨before, after, rfl⟩ := List.append_of_mem hf
  rw [List.map_append, List.map_cons, List.nodup_append] at hn
  refine List.find?_eq_some_iff_append.2 ⟨beq_self_eq_true _, before, after, rfl, fun x hx => ?_⟩
  have hne := hn.2.2 x.name (List.mem_map_of_mem hx) f.name List.mem_cons_self
  simpa using hne

theorem isDeclared_iff : isDeclared fields name = true ↔ ∃ f ∈ fields, f.name = name := by
  simp [isDeclared]

theorem find?_undeclared (h : isDeclared fields name = false) :
    fields.find? (·.name == name) = none := by
  rw [← Bool.not_eq_true, isDeclared_iff] at h
  rw [List.find?_eq_none]
  exact fun f hf he => h ⟨f, hf, by simpa using he⟩

theorem takeColon_append {b : List Char} (h : Blanks b) (cs : List Char) :
    takeColon (b ++ ':' :: cs) = .ok cs := by
  rw [takeColon, skipBlanks_append h, skipBlanks_cons rfl]
  rfl

/-- What stands under an undeclared name is read over. -/
theorem readNamed_undeclared (h : isDeclared fields name = false) (b : Spacing) (hv : IsValue v)
    (hr : Ends rest) :
    readNamed readText fields found name (b.afterName ++ ':' :: (b.beforeValue ++ (v ++ rest))) =
      .ok (found, rest) := by
  rw [readNamed, find?_undeclared h]
  simp only [takeColon_append b.afterName_blank, bind, Except.bind,
    skipAny_append b.beforeValue_blank hv hr]
  rfl

/-- The written value of a declared field is read, if there has been none before. -/
theorem readNamed_declared (hn : (fields.map (·.name)).Nodup) (hf : f ∈ fields)
    (hfound : found.lookup f.name = none) (b : Spacing) {x : FieldValue} (hx : f.kind.Holds x)
    (hr : Ends rest) :
    readNamed readText fields found f.name
        (b.afterName ++ ':' :: (b.beforeValue ++ (x.toJson.write ++ rest))) =
      .ok ((f.name, x) :: found, rest) := by
  rw [readNamed, find?_name hn hf, hfound]
  simp only [Option.isSome_none, Bool.false_eq_true, if_false,
    takeColon_append b.afterName_blank, bind, Except.bind, readField_blanks b.beforeValue_blank,
    readField_write hx hr]
  rfl

/-- Whatever is read after a name, it is what stands there and no more; under a declared name it is
the first of this name. -/
theorem readNamed_ok (b : Spacing) (hv : IsValue v) (hr : Ends rest)
    (h : readNamed readText fields found name
      (b.afterName ++ ':' :: (b.beforeValue ++ (v ++ rest))) = .ok (found', rest')) :
    rest' = rest ∧ Takes fields found name found' := by
  have hskip := skipAny_append b.beforeValue_blank hv hr
  rw [readNamed] at h
  simp only [takeColon_append b.afterName_blank, bind, Except.bind] at h
  split at h
  · rename_i hfind
    have hnot : isDeclared fields name = false := by
      rw [← Bool.not_eq_true, isDeclared_iff]
      rintro ⟨f, hf, he⟩
      exact List.find?_eq_none.mp hfind f hf (by simpa using he)
    rw [hskip] at h
    cases h
    exact ⟨rfl, by rw [Takes, hnot]; rfl⟩
  · rename_i f hfind
    have hdeclared : isDeclared fields name = true :=
      isDeclared_iff.mpr ⟨f, List.mem_of_find?_eq_some hfind, by simpa using List.find?_some hfind⟩
    split at h
    · cases h
    · rename_i hnone
      cases hread : readField readText f.kind (b.beforeValue ++ (v ++ rest)) with
      | error e =>
        rw [hread] at h
        cases h
      | ok x =>
        rw [hread] at h
        cases h
        have hrest := (skipAny_of_readField hread).symm.trans hskip
        rw [Takes, if_pos hdeclared]
        exact ⟨Except.ok.inj hrest, Option.not_isSome_iff_eq_none.mp hnone, _, rfl⟩

end

/-! ### All fields -/

section
variable {fields : List Field} {found found' : Found}

/-- Reading fields goes on behind one that has been read. -/
theorem readMembers_of_readNamed {k v rest : List Char} {name : String} {c : Char} (b : Spacing)
    (hk : Spells k name.toList) (hc : c = '\x7d' ∨ c = ',')
    (h : readNamed readText fields found name
        (b.afterName ++ ':' :: (b.beforeValue ++ (v ++ (b.after ++ c :: rest)))) =
      .ok (found', b.after ++ c :: rest)) (fuel : Nat) :
    readMembers readText fields (fuel + 1) found (b.field k v ++ c :: rest) =
      if c = '\x7d' then (complete fields found').map fun vs => (vs, rest)
      else readMembers readText fields fuel found' rest := by
  have hnext : skipBlanks (b.after ++ c :: rest) = c :: rest := by
    rw [skipBlanks_append b.after_blank, skipBlanks_cons (by rcases hc with rfl | rfl <;> rfl)]
  simp only [Spacing.field, List.append_assoc, List.cons_append]
  rw [readMembers, skipBlanks_append b.before_blank, skipBlanks_cons rfl]
  simp only [bind, Except.bind, hk.read, String.ofList_toList, h, hnext]
  rcases hc with rfl | rfl <;> rfl

/-- Where fields have been read, the first of them has. -/
theorem readNamed_of_readMembers {k v rest rest' : List Char} {name : String} {c : Char}
    {vs : List FieldValue} (b : Spacing) (hk : Spells k name.toList) (hv : IsValue v)
    (hc : c = '\x7d' ∨ c = ',') {fuel : Nat}
    (h : readMembers readText fields fuel found (b.field k v ++ c :: rest) = .ok (vs, rest')) :
    ∃ n found', fuel = n + 1 ∧ Takes fields found name found' ∧
      (if c = '\x7d' then (complete fields found').map fun vs => (vs, rest)
        else readMembers readText fields n found' rest) = .ok (vs, rest') := by
  have hends : Ends (b.after ++ c :: rest) :=
    b.after_blank.ends (ends_cons (by rcases hc with rfl | rfl <;> simp) _)
  cases fuel with
  | zero => cases h
  | succ n =>
    cases hnamed : readNamed readText fields found name
        (b.afterName ++ ':' :: (b.beforeValue ++ (v ++ (b.after ++ c :: rest)))) with
    | error f =>
      simp only [Spacing.field, List.append_assoc, List.cons_append] at h
      rw [readMembers, skipBlanks_append b.before_blank, skipBlanks_cons rfl] at h
      simp only [bind, Except.bind, hk.read, String.ofList_toList, hnamed] at h
      cases h
    | ok x =>
      obtain ⟨found', more⟩ := x
      obtain ⟨rfl, hfound⟩ := readNamed_ok b hv hends hnamed
      rw [readMembers_of_readNamed b hk hc hnamed] at h
      exact ⟨n, found', rfl, hfound, h⟩

/-- The entries of an object as its text has them: the names are spelled between their quotes. -/
def Names (raw : List (List Char × List Char)) (es : List (String × List Char)) : Prop :=
  List.Forall₂ (fun r e => Spells r.1 e.1.toList ∧ r.2 = e.2) raw es

theorem declared_cons (e : String × List Char) (es : List (String × List Char)) :
    declared fields (e :: es) =
      (if isDeclared fields e.1 then [e.1] else []) ++ declared fields es := by
  rw [declared, List.map_cons, List.filter_cons]
  split <;> rfl

theorem declared_nil : declared fields [] = [] := rfl

theorem mem_declared_cons {name : String} {e : String × List Char}
    {es : List (String × List Char)} : name ∈ declared fields (e :: es) ↔
      (isDeclared fields e.1 = true ∧ name = e.1) ∨ name ∈ declared fields es := by
  rw [declared_cons, List.mem_append]
  split <;> simp [*]

/-- The names of what has been found grow by the declared ones. -/
theorem Takes.keys {name : String} (h : Takes fields found name found') :
    found'.map (·.1) = (if isDeclared fields name then [name] else []) ++ found.map (·.1) := by
  unfold Takes at h
  split at h
  · rename_i hd
    obtain ⟨-, x, rfl⟩ := h
    rw [if_pos hd]
    rfl
  · rename_i hd
    rw [if_neg hd, h]
    rfl

/-- No name is found twice. -/
theorem Takes.nodup {name : String} (h : Takes fields found name found')
    (hn : (found.map (·.1)).Nodup) : (found'.map (·.1)).Nodup := by
  unfold Takes at h
  split at h
  · obtain ⟨hnone, x, rfl⟩ := h
    rw [List.map_cons, List.nodup_cons]
    refine ⟨fun hm => ?_, hn⟩
    obtain ⟨y, hy, he⟩ := List.mem_map.mp hm
    have := List.lookup_eq_none_iff.mp hnone y hy
    simp [he] at this
  · rw [h]
    exact hn

/-- What has been found when all fields have been read: each declared name once, and none that had
been found before. -/
theorem readMembers_ok {raw : List (List Char × List Char)} {es : List (String × List Char)}
    {t rest rest' : List Char} {vs : List FieldValue} {fuel : Nat} {found : Found} :
    IsFields raw t → Names raw es →
    readMembers readText fields fuel found (t ++ '\x7d' :: rest) = .ok (vs, rest') →
    rest' = rest ∧ ∃ found', complete fields found' = .ok vs ∧
      found'.map (·.1) = (declared fields es).reverse ++ found.map (·.1) ∧
      ((found.map (·.1)).Nodup → (found'.map (·.1)).Nodup)
  | .last b hk hv, .cons hn .nil, h => by
    obtain ⟨n, found', -, htakes, h⟩ := readNamed_of_readMembers b hn.1 hv (.inl rfl) h
    obtain ⟨vs', hvs, he⟩ := ok_of_map (if_pos rfl ▸ h)
    cases he
    refine ⟨rfl, found', hvs, ?_, htakes.nodup⟩
    rw [htakes.keys, declared_cons, declared_nil, List.append_nil]
    split <;> rfl
  | .more b hk hv hmore, .cons hn hrest, h => by
    rw [List.append_assoc, List.cons_append] at h
    obtain ⟨n, found₁, -, htakes, h⟩ := readNamed_of_readMembers b hn.1 hv (.inr rfl) h
    rw [if_neg (by decide)] at h
    obtain ⟨rfl, found', hvs, hkeys, hnodup⟩ := readMembers_ok hmore hrest h
    refine ⟨rfl, found', hvs, ?_, fun hn => hnodup (htakes.nodup hn)⟩
    rw [hkeys, htakes.keys, declared_cons, List.reverse_append, List.append_assoc]
    split <;> rfl

/-- The object has, under a declared name, the written form of what the field of this name is to
hold. -/
def Fits (fields : List Field) (given : Found) (e : String × List Char) : Prop :=
  isDeclared fields e.1 = true → ∃ f ∈ fields, ∃ x, f.name = e.1 ∧ f.kind.Holds x ∧
    given.lookup e.1 = some x ∧ e.2 = x.toJson.write

/-- The next field is read: a declared one as what it is to hold, another one not at all. -/
theorem readNamed_fits {given : Found} {e : String × List Char} (hn : (fields.map (·.name)).Nodup)
    (he : Fits fields given e) (hfound : isDeclared fields e.1 = true → found.lookup e.1 = none)
    (b : Spacing) (hv : IsValue e.2) {rest : List Char} (hr : Ends rest) :
    ∃ found', readNamed readText fields found e.1
        (b.afterName ++ ':' :: (b.beforeValue ++ (e.2 ++ rest))) = .ok (found', rest) ∧
      ∀ name, found'.lookup name =
        if isDeclared fields e.1 = true ∧ name = e.1 then given.lookup name
        else found.lookup name := by
  by_cases hd : isDeclared fields e.1 = true
  · obtain ⟨f, hf, x, hname, hx, hgiven, hwrite⟩ := he hd
    refine ⟨(e.1, x) :: found, ?_, fun name => ?_⟩
    · rw [← hname, hwrite]
      exact readNamed_declared hn hf (hname ▸ hfound hd) b hx hr
    · rw [List.lookup_cons]
      by_cases hne : name = e.1
      · rw [if_pos ⟨hd, hne⟩, hne, beq_self_eq_true, hgiven]
      · rw [if_neg (fun h => hne h.2), beq_eq_false_iff_ne.mpr hne]
  · refine ⟨found, readNamed_undeclared (by simpa using hd) b hv hr, fun name => ?_⟩
    rw [if_neg (fun h => hd h.1)]

/-- All fields are read, and what has been found is what was given under the names that the object
has. -/
theorem readMembers_gives {raw : List (List Char × List Char)} {es : List (String × List Char)}
    {t : List Char} {fuel : Nat} {given : Found} (found : Found) (rest : List Char)
    (hn : (fields.map (·.name)).Nodup) (ho : (declared fields es).Nodup)
    (hv : ∀ e ∈ es, Fits fields given e)
    (hfound : ∀ name ∈ declared fields es, found.lookup name = none)
    (hfuel : raw.length ≤ fuel) : IsFields raw t → Names raw es →
    ∃ found', readMembers readText fields fuel found (t ++ '\x7d' :: rest) =
        (complete fields found').map (fun vs => (vs, rest)) ∧
      ∀ name, found'.lookup name =
        if name ∈ declared fields es then given.lookup name else found.lookup name
  | .last b hk hv', @List.Forall₂.cons _ _ _ _ e _ _ hname .nil => by
    obtain ⟨hspells, rfl⟩ := hname
    obtain ⟨fuel, rfl⟩ : ∃ n, fuel = n + 1 := Nat.exists_eq_add_one.mpr hfuel
    obtain ⟨found', hread, hlookup⟩ := readNamed_fits hn (hv e List.mem_cons_self)
      (fun hd => hfound _ (mem_declared_cons.mpr (.inl ⟨hd, rfl⟩))) b hv'
      (b.after_blank.ends (ends_cons (c := '\x7d') (by simp) rest))
    refine ⟨found', (readMembers_of_readNamed b hspells (.inl rfl) hread fuel).trans (if_pos rfl),
      fun name => ?_⟩
    simp only [hlookup, mem_declared_cons, declared_nil, List.not_mem_nil, or_false]
  | @IsFields.more _ _ t _ b hk hv' hmore, @List.Forall₂.cons _ _ _ _ e _ es hname hrest => by
    obtain ⟨hspells, rfl⟩ := hname
    obtain ⟨fuel, rfl⟩ : ∃ n, fuel = n + 1 :=
      Nat.exists_eq_add_one.mpr (Nat.lt_of_lt_of_le (Nat.zero_lt_succ _) hfuel)
    obtain ⟨found₁, hread, hlookup⟩ := readNamed_fits hn (hv e List.mem_cons_self)
      (fun hd => hfound _ (mem_declared_cons.mpr (.inl ⟨hd, rfl⟩))) b hv'
      (b.after_blank.ends (ends_cons (c := ',') (by simp) (t ++ '\x7d' :: rest)))
    -- The name that has just been read does not come again.
    have hnew {name : String} (hm : name ∈ declared fields es) :
        ¬ (isDeclared fields e.1 = true ∧ name = e.1) := by
      rintro ⟨hd, rfl⟩
      rw [declared_cons, if_pos hd, List.singleton_append, List.nodup_cons] at ho
      exact ho.1 hm
    have ho' : (declared fields es).Nodup := by
      rw [declared_cons] at ho
      exact (List.nodup_append.mp ho).2.1
    obtain ⟨found', hmembers, hlookup'⟩ := readMembers_gives found₁ rest hn ho'
      (fun e he => hv e (List.mem_cons_of_mem _ he))
      (fun name hm => by
        rw [hlookup, if_neg (hnew hm)]
        exact hfound name (mem_declared_cons.mpr (.inr hm)))
      (Nat.le_of_succ_le_succ hfuel) hmore hrest
    refine ⟨found', ?_, fun name => ?_⟩
    · rw [List.append_assoc, List.cons_append,
        readMembers_of_readNamed b hspells (.inr rfl) hread, if_neg (by decide), hmembers]
    · rw [hlookup', hlookup]
      simp only [mem_declared_cons]
      by_cases hm : name ∈ declared fields es
      · rw [if_pos hm, if_pos (.inr hm)]
      · by_cases he : isDeclared fields e.1 = true ∧ name = e.1
        · rw [if_neg hm, if_pos he, if_pos (.inl he)]
        · rw [if_neg hm, if_neg he, if_neg (not_or.mpr ⟨he, hm⟩)]

end

/-! ### Records -/

/-- What has been found under a name that is there once. -/
theorem lookup_of_mem {found : Found} {name : String} {v : FieldValue}
    (hn : (found.map (·.1)).Nodup) (hm : (name, v) ∈ found) : found.lookup name = some v := by
  obtain ⟨before, after, rfl⟩ := List.append_of_mem hm
  rw [List.map_append, List.map_cons, List.nodup_append] at hn
  refine List.lookup_eq_some_iff.2 ⟨before, after, rfl, fun x hx => ?_⟩
  exact bne_iff_ne.2 (Ne.symm (hn.2.2 x.1 (List.mem_map_of_mem hx) name List.mem_cons_self))

section
variable {fields : List Field} {found : Found} {vs : List FieldValue}

/-- Fields for which values are known, or which have a default, are completed to these. -/
theorem complete_eq (hlen : vs.length = fields.length)
    (h : ∀ x ∈ fields.zip vs, (found.lookup x.1.name).or x.1.default? = some x.2) :
    complete fields found = .ok vs := by
  unfold complete
  induction fields generalizing vs with
  | nil =>
    rw [List.length_eq_zero_iff.mp hlen]
    rfl
  | cons f fields ih =>
    obtain ⟨v, vs, rfl⟩ := List.exists_cons_of_length_eq_add_one hlen
    have hv := h (f, v) (by simp)
    rw [List.mapM_cons, ih (by simpa using hlen) fun x hx => h x (by simp [hx])]
    simp only [hv]
    rfl

/-- Where all fields have been completed, each one without a default has been found. -/
theorem mem_of_complete {f : Field} (h : complete fields found = .ok vs) (hf : f ∈ fields)
    (hd : f.default? = none) : f.name ∈ found.map (·.1) := by
  unfold complete at h
  induction fields generalizing vs with
  | nil => cases hf
  | cons g fields ih =>
    rw [List.mapM_cons] at h
    simp only [bind, Except.bind] at h
    split at h
    · cases h
    · rename_i v hv
      split at h
      · cases h
      · rename_i ws hws
        rcases List.mem_cons.mp hf with rfl | hf
        · by_contra hnot
          have hnone : found.lookup f.name = none :=
            List.lookup_eq_none_iff.mpr fun x hx => bne_iff_ne.mpr fun he =>
              hnot (he ▸ List.mem_map_of_mem hx)
          rw [hnone, hd] at hv
          cases hv
        · exact ih hws hf

end

/-- A text that is an object, by the names and the values that stand in it. -/
inductive IsObject : List (String × List Char) → List Char → Prop
  | empty {b : List Char} (hb : Blanks b) : IsObject [] ('\x7b' :: (b ++ ['\x7d']))
  | fields {raw : List (List Char × List Char)} {es : List (String × List Char)} {t : List Char}
    (h : IsFields raw t) (hn : Names raw es) : IsObject es ('\x7b' :: (t ++ ['\x7d']))

/-- The object gives the fields these values: it has no declared name twice, and under the name of
each field it has the written form of its value, unless this is the default and the field is left
out. -/
structure Gives (fields : List Field) (values : List FieldValue)
    (es : List (String × List Char)) : Prop where
  once : (declared fields es).Nodup
  each : ∀ x ∈ fields.zip values, (x.1.name, x.2.toJson.write) ∈ es ∨
    x.1.name ∉ es.map (·.1) ∧ x.1.default? = some x.2

section
variable {fields : List Field} {values : List FieldValue} {es : List (String × List Char)}

/-- What stands under the name of a field is what it is given. -/
theorem Gives.fits (hg : Gives fields values es)
    (hlen : values.length = fields.length) (hh : ∀ x ∈ fields.zip values, x.1.kind.Holds x.2)
    {given : Found} (hgiven : ∀ x ∈ fields.zip values, given.lookup x.1.name = some x.2) :
    ∀ e ∈ es, Fits fields given e := by
  intro e he hd
  obtain ⟨f, hf, hname⟩ := isDeclared_iff.mp hd
  obtain ⟨x, hx⟩ : ∃ x, (f, x) ∈ fields.zip values := by
    have hfst : (fields.zip values).map (·.1) = fields := List.map_fst_zip (by omega)
    obtain ⟨y, hy, rfl⟩ := List.mem_map.mp (hfst ▸ hf)
    exact ⟨y.2, hy⟩
  have hmem : (f.name, x.toJson.write) ∈ es := (hg.each _ hx).resolve_right fun h =>
    h.1 (hname ▸ List.mem_map_of_mem he)
  -- No other entry has this name.
  have honce : ((es.filter fun e => isDeclared fields e.1).map (·.1)).Nodup := by
    have h := hg.once
    rwa [declared, List.filter_map] at h
  have heq : e = (f.name, x.toJson.write) :=
    List.inj_on_of_nodup_map honce (List.mem_filter.mpr ⟨he, hd⟩)
      (List.mem_filter.mpr ⟨hmem, by rwa [hname]⟩) hname.symm
  exact ⟨f, hf, x, hname, hh _ hx, hname ▸ hgiven _ hx, congrArg Prod.snd heq⟩

theorem readRecord_fields (fields : List Field) {raw : List (List Char × List Char)} {t : List Char}
    (h : IsFields raw t) (rest : List Char) :
    ∃ fuel, raw.length ≤ fuel ∧ readRecord readText fields ('\x7b' :: (t ++ '\x7d' :: rest)) =
      readMembers readText fields fuel [] (t ++ '\x7d' :: rest) := by
  have hskip (fuel : Nat) (cs : List Char) :
      readMembers readText fields fuel [] (skipBlanks cs) =
        readMembers readText fields fuel [] cs := by
    cases fuel with
    | zero => rfl
    | succ fuel => simp only [readMembers, skipBlanks_skipBlanks]
  obtain ⟨cs, hcs⟩ := h.head ('\x7d' :: rest)
  refine ⟨('"' :: cs).length + 1, ?_, ?_⟩
  · have hlen := h.length_le_skip ('\x7d' :: rest)
    rw [hcs] at hlen
    omega
  · rw [readRecord, skipBlanks_cons rfl]
    simp only [hcs]
    rw [← hskip _ (t ++ _), hcs]
    rfl

theorem readRecord_blanks {b : List Char} (h : Blanks b) (cs : List Char) :
    readRecord readText fields (b ++ cs) = readRecord readText fields cs := by
  rw [readRecord, readRecord, skipBlanks_append h]

/-- An object that gives the fields of a record their values is read as the record. -/
theorem readRecord_gives {t : List Char} (hn : (fields.map (·.name)).Nodup)
    (hlen : values.length = fields.length) (hh : ∀ x ∈ fields.zip values, x.1.kind.Holds x.2)
    (hg : Gives fields values es) (ho : IsObject es t) (rest : List Char) :
    readRecord readText fields (t ++ rest) = .ok (values, rest) := by
  cases ho with
  | @empty b hb =>
    have hcomplete : complete fields [] = .ok values := complete_eq hlen fun x hx => by
      rcases hg.each x hx with h | h
      · cases h
      · rw [h.2]
        rfl
    simp only [List.cons_append, List.append_assoc, List.nil_append]
    rw [readRecord, skipBlanks_cons rfl]
    simp only [skipBlanks_append hb, skipBlanks_cons (rfl : isBlank '\x7d' = false), hcomplete]
    rfl
  | @fields raw _ t h hnames =>
    obtain ⟨fuel, hfuel, hread⟩ := readRecord_fields fields h rest
    let given : Found := (fields.zip values).map fun x => (x.1.name, x.2)
    have hkeys : given.map (·.1) = fields.map (·.name) := by
      have hfst : (fields.zip values).map (·.1) = fields := List.map_fst_zip (by omega)
      rw [← congrArg (List.map (·.name)) hfst, List.map_map, List.map_map]
      rfl
    have hgiven : ∀ x ∈ fields.zip values, given.lookup x.1.name = some x.2 := fun x hx =>
      lookup_of_mem (hkeys ▸ hn) (List.mem_map.mpr ⟨x, hx, rfl⟩)
    obtain ⟨found, hmembers, hlookup⟩ := readMembers_gives [] rest hn hg.once
      (hg.fits hlen hh hgiven) (fun _ _ => rfl) hfuel h hnames
    have hcomplete : complete fields found = .ok values := complete_eq hlen fun x hx => by
      rw [hlookup]
      rcases hg.each x hx with hmem | ⟨hmem, hd⟩
      · have hin : x.1.name ∈ declared fields es := List.mem_filter.mpr
          ⟨List.mem_map_of_mem hmem, isDeclared_iff.mpr ⟨x.1, (List.of_mem_zip hx).1, rfl⟩⟩
        rw [if_pos hin, hgiven x hx]
        rfl
      · have hout : x.1.name ∉ declared fields es := fun hin => hmem (List.mem_filter.mp hin).1
        rw [if_neg hout, hd]
        rfl
    simp only [List.cons_append, List.append_assoc, List.nil_append]
    rw [hread, hmembers, hcomplete]
    rfl

/-- A record that has been read has its fields in the object: each one without a default, and none
twice. -/
theorem readRecord_ok {t rest rest' : List Char} (ho : IsObject es t)
    (h : readRecord readText fields (t ++ rest) = .ok (values, rest')) :
    (declared fields es).Nodup ∧ ∀ f ∈ fields, f.default? = none → f.name ∈ es.map (·.1) := by
  cases ho with
  | @empty b hb =>
    simp only [List.cons_append, List.append_assoc, List.nil_append] at h
    rw [readRecord, skipBlanks_cons rfl] at h
    simp only [skipBlanks_append hb, skipBlanks_cons (rfl : isBlank '\x7d' = false)] at h
    obtain ⟨vs, hvs, -⟩ := ok_of_map h
    exact ⟨List.nodup_nil, fun f hf hd => mem_of_complete hvs hf hd⟩
  | @fields raw _ t hfields hnames =>
    obtain ⟨fuel, -, hread⟩ := readRecord_fields fields hfields rest
    simp only [List.cons_append, List.append_assoc, List.nil_append] at h
    rw [hread] at h
    obtain ⟨-, found, hvs, hkeys, hnodup⟩ := readMembers_ok hfields hnames h
    rw [List.map_nil, List.append_nil] at hkeys
    refine ⟨List.nodup_reverse.mp (hkeys ▸ hnodup List.nodup_nil), fun f hf hd => ?_⟩
    have hmem := mem_of_complete hvs hf hd
    rw [hkeys, List.mem_reverse] at hmem
    exact (List.mem_filter.mp hmem).1

end

end Json
end EfsControl
