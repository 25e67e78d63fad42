/-
# Tables grow to what was written

A table under a header of its own gets the entries that follow the header, in
order, as long as no key comes twice; the tables in front of it stay as they
are. Tables with different names therefore make up the document that lists
them.

Key definitions: `Table`, `Table.statements`.
Key theorems: `apply_header`, `apply_entry`, `foldlM_entries`, `foldlM_tables`,
`ofStatements_tables`.
-/
import EfsControl.Toml.Table
import Mathlib.Data.List.Nodup
import Mathlib.Tactic.Common

namespace EfsControl
namespace Toml

/-! ### The entries of a table -/

/-- The keys of entries. -/
def keys (entries : Entries) : List (List Char) := entries.map (·.1)

theorem lookup_eq_none {key : List Char} {entries : Entries} (h : key ∉ keys entries) :
    lookup key entries = none := by
  induction entries with
  | nil => rfl
  | cons entry entries ih =>
    simp only [keys, List.map_cons, List.mem_cons, not_or] at h
    rw [lookup, if_neg fun he => h.1 he.symm]
    exact ih h.2

/-- A key that comes once has its value. -/
theorem lookup_of_mem {key : List Char} {v : Value} {entries : Entries} (h : (keys entries).Nodup)
    (hm : (key, v) ∈ entries) : lookup key entries = some v := by
  induction entries with
  | nil => cases hm
  | cons entry entries ih =>
    obtain ⟨k, w⟩ := entry
    obtain ⟨hk, hrest⟩ := List.nodup_cons.mp h
    rcases List.mem_cons.mp hm with heq | hm
    · cases heq
      exact if_pos rfl
    · have hne : k ≠ key := fun he => hk (he ▸ List.mem_map.mpr ⟨_, hm, rfl⟩)
      rw [lookup, if_neg hne]
      exact ih hrest hm

/-- A key that was not there has the value that is added for it. -/
theorem lookup_append {key : List Char} {entries : Entries} (h : key ∉ keys entries) (v : Value) :
    lookup key (entries ++ [(key, v)]) = some v := by
  induction entries with
  | nil => simp [lookup]
  | cons entry entries ih =>
    simp only [keys, List.map_cons, List.mem_cons, not_or] at h
    rw [List.cons_append, lookup, if_neg fun he => h.1 he.symm]
    exact ih h.2

/-- Only the entry of the key gets another value. -/
theorem replace_append {key : List Char} {entries : Entries} (h : key ∉ keys entries)
    (v w : Value) : replace key v (entries ++ [(key, w)]) = entries ++ [(key, v)] := by
  induction entries with
  | nil => simp [replace]
  | cons entry entries ih =>
    obtain ⟨k, x⟩ := entry
    simp only [keys, List.map_cons, List.mem_cons, not_or] at h
    show (if k = key then (k, v) else (k, x)) :: replace key v (entries ++ [(key, w)]) = _
    rw [if_neg fun he => h.1 he.symm, ih h.2, List.cons_append]

/-! ### The statements of a table -/

/-- A table of a document: its name and its entries. -/
structure Table where
  name : List Char
  entries : Entries

/-- The header of a table and its entries, one statement each. -/
def Table.statements (t : Table) : List Statement :=
  .header ⟨[], t.name⟩ :: t.entries.map fun (k, v) => .entry ⟨[], k⟩ v

/-- The table as an entry of the document. -/
def Table.entry (t : Table) : List Char × Value := (t.name, .table .headed t.entries)

/-- The document in front of a table, and the table as far as it has been read. -/
def draft (before : Entries) (t : Table) : Draft := ⟨[t.name], before ++ [t.entry]⟩

/-- A header begins an empty table. -/
theorem apply_header {before : Entries} {name : List Char} (h : name ∉ keys before)
    (header : List (List Char)) :
    Statement.apply ⟨header, before⟩ (.header ⟨[], name⟩) = some (draft before ⟨name, []⟩) := by
  simp [Statement.apply, beginTable, updateAt, lookup_eq_none h, draft, Table.entry]

/-- An entry with a new key is added to the table of the latest header. -/
theorem apply_entry {before : Entries} {t : Table} {key : List Char} (hname : t.name ∉ keys before)
    (hkey : key ∉ keys t.entries) (v : Value) :
    Statement.apply (draft before t) (.entry ⟨[], key⟩ v) =
      some (draft before ⟨t.name, t.entries ++ [(key, v)]⟩) := by
  have hfound : lookup t.name (draft before t).entries = some (.table .headed t.entries) :=
    lookup_append hname _
  have hadd : assign ⟨[], key⟩ v t.entries = some (t.entries ++ [(key, v)]) := by
    simp [assign, updateAt, lookup_eq_none hkey]
  have hgrown : replace t.name (.table .headed (t.entries ++ [(key, v)])) (draft before t).entries =
      before ++ [(t.name, .table .headed (t.entries ++ [(key, v)]))] := replace_append hname _ _
  have hpass : TableKind.passable false .headed = true := rfl
  show Option.map _ (updateAt false _ [t.name] .headed (draft before t).entries) = _
  simp only [updateAt, hfound, hpass, if_true, hadd, Option.map_some, hgrown]
  rfl

/-- The entries under a header are added to its table one after the other. -/
theorem foldlM_entries {before : Entries} {t : Table} {entries : Entries}
    (hname : t.name ∉ keys before) (h : (keys (t.entries ++ entries)).Nodup) :
    (entries.map fun (k, v) => Statement.entry ⟨[], k⟩ v).foldlM Statement.apply (draft before t) =
      some (draft before ⟨t.name, t.entries ++ entries⟩) := by
  induction entries generalizing t with
  | nil => rw [List.append_nil]; rfl
  | cons entry entries ih =>
    obtain ⟨key, v⟩ := entry
    have hsplit : t.entries ++ (key, v) :: entries = (t.entries ++ [(key, v)]) ++ entries := by simp
    have hkey : key ∉ keys t.entries := by
      intro hmem
      have hdisjoint := (List.nodup_append.mp (by simpa only [keys, List.map_append] using h)).2.2
      exact hdisjoint key hmem key (by simp) rfl
    rw [hsplit] at h ⊢
    rw [List.map_cons, List.foldlM_cons, apply_entry hname hkey]
    exact ih (t := ⟨t.name, t.entries ++ [(key, v)]⟩) hname h

/-- A table with a new name is added to the document. -/
theorem foldlM_table {before : Entries} {t : Table} (hname : t.name ∉ keys before)
    (h : (keys t.entries).Nodup) (header : List (List Char)) :
    t.statements.foldlM Statement.apply ⟨header, before⟩ =
      some ⟨[t.name], before ++ [t.entry]⟩ := by
  rw [Table.statements, List.foldlM_cons, apply_header hname]
  exact foldlM_entries (t := ⟨t.name, []⟩) hname h

/-- Tables with different names are added one after the other. -/
theorem foldlM_tables {tables : List Table} (before : Entries)
    (hnames : (keys before ++ tables.map (·.name)).Nodup)
    (h : ∀ t ∈ tables, (keys t.entries).Nodup) (header : List (List Char)) :
    ∃ header', (tables.flatMap Table.statements).foldlM Statement.apply ⟨header, before⟩ =
      some ⟨header', before ++ tables.map Table.entry⟩ := by
  induction tables generalizing before header with
  | nil => exact ⟨header, by simp⟩
  | cons t tables ih =>
    have hname : t.name ∉ keys before := by
      intro hmem
      exact (List.nodup_append.mp hnames).2.2 t.name hmem t.name (by simp) rfl
    have hrest : (keys (before ++ [t.entry]) ++ tables.map (·.name)).Nodup := by
      simpa [keys, Table.entry] using hnames
    obtain ⟨header', hread⟩ := ih _ hrest (fun u hu => h u (List.mem_cons_of_mem t hu)) [t.name]
    refine ⟨header', ?_⟩
    rw [List.flatMap_cons, List.foldlM_append, foldlM_table hname (h t List.mem_cons_self)]
    simpa using hread

/-- A document is the list of its tables, if no name and no key in a table comes twice. -/
theorem ofStatements_tables {tables : List Table} (hnames : (tables.map (·.name)).Nodup)
    (h : ∀ t ∈ tables, (keys t.entries).Nodup) :
    ofStatements (tables.flatMap Table.statements) = some (tables.map Table.entry) := by
  obtain ⟨header, hread⟩ := foldlM_tables [] hnames h []
  rw [ofStatements]
  show Option.map _ ((tables.flatMap Table.statements).foldlM Statement.apply ⟨[], []⟩) = _
  rw [hread]
  rfl

end Toml
end EfsControl
