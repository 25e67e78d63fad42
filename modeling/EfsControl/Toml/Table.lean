/-
# How tables grow

A document is a list of statements: a header that begins a table, a
double-bracketed header that begins the next table of an array, and a key
with its value. A key is set once. A header names a table that no header, key
or brace has made before; it may pass through tables that exist. A dotted key
may pass only through tables that came about as parts of paths, and adds to
one that dotted keys made.

Key definitions: `Toml.Path`, `Statement`, `updateAt`, `assign`, `Statement.apply`.
-/
import EfsControl.Toml.Value

namespace EfsControl
namespace Toml

/-- A key and the keys in front of it. -/
structure Path where
  parents : List (List Char)
  key : List Char

/-- A statement of a document. -/
inductive Statement
  | header (path : Path)
  | arrayHeader (path : Path)
  | entry (path : Path) (v : Value)

/-- Whether a path may pass through a table: by dotted keys, or by a header. -/
def TableKind.passable (byKey : Bool) (kind : TableKind) : Bool :=
  if byKey then kind == .implied || kind == .dotted else kind != .braced

/-- The entries after a change to the table at a path. Tables that are not there are made. A header
passes to the latest table of an array. -/
def updateAt (byKey : Bool) (change : TableKind → Entries → Option Entries) :
    List (List Char) → TableKind → Entries → Option Entries
  | [], kind, entries => change kind entries
  | k :: ks, _, entries =>
    match lookup k entries with
    | none =>
      let kind := if byKey then .dotted else .implied
      (updateAt byKey change ks kind []).map fun sub => entries ++ [(k, .table kind sub)]
    | some (.table kind sub) =>
      if kind.passable byKey then
        (updateAt byKey change ks kind sub).map fun sub => replace k (.table kind sub) entries
      else none
    | some (.array true items) =>
      match byKey, items.getLast? with
      | false, some (.table kind sub) =>
        (updateAt byKey change ks kind sub).map fun sub =>
          replace k (.array true (items.dropLast ++ [.table kind sub])) entries
      | _, _ => none
    | some _ => none

/-- The entries of a table with one more. A dotted key adds only to tables that dotted keys made. -/
def assign (path : Path) (v : Value) (entries : Entries) : Option Entries :=
  updateAt true
    (fun kind entries =>
      if !path.parents.isEmpty && kind != .dotted then none
      else if (lookup path.key entries).isSome then none
      else some (entries ++ [(path.key, v)]))
    path.parents .headed entries

/-- The entries of a document with a table of its own at the path. -/
def beginTable (path : Path) (entries : Entries) : Option Entries :=
  updateAt false
    (fun _ entries =>
      match lookup path.key entries with
      | none => some (entries ++ [(path.key, .table .headed [])])
      | some (.table .implied sub) => some (replace path.key (.table .headed sub) entries)
      | some _ => none)
    path.parents .headed entries

/-- The entries of a document with one more table in the array at the path. -/
def beginItem (path : Path) (entries : Entries) : Option Entries :=
  updateAt false
    (fun _ entries =>
      match lookup path.key entries with
      | none => some (entries ++ [(path.key, .array true [.table .headed []])])
      | some (.array true items) =>
        some (replace path.key (.array true (items ++ [.table .headed []])) entries)
      | some _ => none)
    path.parents .headed entries

/-- A document that is being read: the keys of the latest header, and all entries. -/
structure Draft where
  header : List (List Char) := []
  entries : Entries := []

/-- What a statement adds. -/
def Statement.apply (d : Draft) : Statement → Option Draft
  | .header path => (beginTable path d.entries).map fun es => ⟨path.parents ++ [path.key], es⟩
  | .arrayHeader path => (beginItem path d.entries).map fun es => ⟨path.parents ++ [path.key], es⟩
  | .entry path v =>
    (updateAt false (fun _ es => assign path v es) d.header .headed d.entries).map fun es =>
      { d with entries := es }

/-- The entries that the fields between two braces make. -/
def bracedEntries (fields : List (Path × Value)) : Option Entries :=
  fields.foldlM (fun es (path, v) => assign path v es) []

/-- The entries of a document. -/
def ofStatements (statements : List Statement) : Option Entries :=
  (statements.foldlM Statement.apply {}).map (·.entries)

end Toml
end EfsControl
