/-
# Settings that are left out

What is given for some settings can be written, with the tables and settings
in any order, and comes back as the default configuration with exactly these
settings replaced. A table that is left out, an empty one and no file at all
come to the same defaults. The configuration is checked as a whole, so the
first check that it fails decides, wherever the setting stands.

Key definitions: `Given.text`, `Given.Layout`.
Key theorems: `Given.Layout.isText`, `parse_given`.
-/
import EfsControl.Cli.Report
import EfsControl.Proofs.Config.Settings
import EfsControl.Proofs.Text.Utf8
import Mathlib.Data.List.Forall2

namespace EfsControl
namespace AppConfig

open Toml (Entries Lines Table)

namespace Given

variable {g : Given}

/-! ### Writing -/

/-- The given settings of a table, in an order. -/
def among (g : Given) (order : List Setting) (part : Section) :
    List ((s : Setting) × s.kind.Content) :=
  (order.filter (·.part = part)).filterMap fun s => (g s).map (Sigma.mk s)

/-- The given settings of a table as entries. -/
def entriesOf (g : Given) (order : List Setting) (part : Section) : Entries :=
  (g.among order part).map fun x => (x.1.key.toList, x.1.kind.value x.2)

/-- The given settings of a table as they are written. -/
def linesOf (g : Given) (order : List Setting) (part : Section) : List (String × List Char) :=
  (g.among order part).map fun x => (x.1.key, x.1.kind.write x.2)

/-- Some tables, each with its given settings. -/
def textChars (g : Given) (parts : List Section) (order : List Setting) : List Char :=
  parts.flatMap fun part => tableLines part.name (g.linesOf order part)

/-- A text with some tables, each with its given settings. -/
def text (g : Given) (parts : List Section) (order : List Setting) : String :=
  String.ofList (g.textChars parts order)

/-- The tables and the settings of a text in their orders: none comes twice, and none that is needed
is missing. There may be tables for which nothing is given. -/
structure Layout (g : Given) (parts : List Section) (order : List Setting) : Prop where
  parts_once : parts.Nodup
  order_once : order.Nodup
  complete : ∀ s, g s ≠ none → s ∈ order ∧ s.part ∈ parts

variable {parts : List Section} {order : List Setting} {part : Section}

theorem mem_among {s : Setting} {a : s.kind.Content} :
    ⟨s, a⟩ ∈ g.among order part ↔ s ∈ order ∧ s.part = part ∧ g s = some a := by
  constructor
  · intro h
    obtain ⟨t, ht, hs⟩ := List.mem_filterMap.mp h
    obtain ⟨b, hb, heq⟩ := Option.map_eq_some_iff.mp hs
    cases heq
    obtain ⟨horder, hpart⟩ := List.mem_filter.mp ht
    exact ⟨horder, of_decide_eq_true hpart, hb⟩
  · rintro ⟨horder, hpart, ha⟩
    refine List.mem_filterMap.mpr ⟨s, List.mem_filter.mpr ⟨horder, decide_eq_true hpart⟩, ?_⟩
    rw [ha]
    rfl

theorem nodup_among (h : order.Nodup) (g : Given) (part : Section) :
    (g.among order part).Nodup := by
  refine (h.filter _).filterMap fun s t x hs ht => ?_
  obtain ⟨a, -, rfl⟩ := Option.map_eq_some_iff.mp hs
  obtain ⟨b, -, heq⟩ := Option.map_eq_some_iff.mp ht
  cases heq
  rfl

/-- No key comes twice in a table. -/
theorem nodup_entriesOf (h : order.Nodup) (g : Given) (part : Section) :
    (Toml.keys (g.entriesOf order part)).Nodup := by
  have hkeys : Toml.keys (g.entriesOf order part) =
      (g.among order part).map fun x => x.1.key.toList := List.map_map
  rw [hkeys]
  refine (nodup_among h g part).map_on fun ⟨s, a⟩ hx ⟨t, b⟩ hy heq => ?_
  obtain ⟨-, hs, ha⟩ := mem_among.mp hx
  obtain ⟨-, ht, hb⟩ := mem_among.mp hy
  obtain rfl : s = t := Setting.eq_of_key (hs.trans ht.symm) heq
  obtain rfl : a = b := Option.some.inj (ha.symm.trans hb)
  rfl

theorem mem_keys_entriesOf {key : List Char} (h : key ∈ Toml.keys (g.entriesOf order part)) :
    ∃ s : Setting, s.part = part ∧ s.key.toList = key ∧ g s ≠ none := by
  obtain ⟨entry, hentry, rfl⟩ := List.mem_map.mp h
  obtain ⟨⟨s, a⟩, hx, rfl⟩ := List.mem_map.mp hentry
  obtain ⟨-, hs, ha⟩ := mem_among.mp hx
  exact ⟨s, hs, rfl, by simp [ha]⟩

theorem Layout.standsUnder (h : g.Layout parts order) (part : Section) :
    g.StandsUnder part (g.entriesOf order part) := by
  constructor
  · intro s hs
    cases hg : g s with
    | none =>
      have hkey : s.key.toList ∉ Toml.keys (g.entriesOf order part) := by
        intro hm
        obtain ⟨t, ht, hkey, hgiven⟩ := mem_keys_entriesOf hm
        obtain rfl : t = s := Setting.eq_of_key (ht.trans hs.symm) hkey
        exact hgiven hg
      rw [Toml.lookup_eq_none hkey]
      exact .none
    | some a =>
      have horder : s ∈ order := (h.complete s (by simp [hg])).1
      have hm : (s.key.toList, s.kind.value a) ∈ g.entriesOf order part :=
        List.mem_map.mpr ⟨⟨s, a⟩, mem_among.mpr ⟨horder, hs, hg⟩, rfl⟩
      rw [Toml.lookup_of_mem (nodup_entriesOf h.order_once g part) hm]
      exact .some (.usual a)
  · intro key hkey
    obtain ⟨s, hs, hkey, -⟩ := mem_keys_entriesOf hkey
    exact ⟨s, hs, hkey⟩

/-- The tables of a text. -/
def tablesOf (g : Given) (parts : List Section) (order : List Setting) : List Table :=
  parts.map fun part => ⟨part.name.toList, g.entriesOf order part⟩

theorem nodup_names (h : parts.Nodup) (g : Given) (order : List Setting) :
    ((g.tablesOf parts order).map (·.name)).Nodup := by
  have hnames : (g.tablesOf parts order).map (·.name) = parts.map fun part => part.name.toList :=
    List.map_map
  rw [hnames]
  exact h.map fun _ _ => Section.eq_of_name

/-- What is written gives what was given. -/
theorem Layout.standsIn (h : g.Layout parts order) :
    g.StandsIn ((g.tablesOf parts order).map Table.entry) := by
  have hkeys : Toml.keys ((g.tablesOf parts order).map Table.entry) =
      (g.tablesOf parts order).map (·.name) := List.map_map
  constructor
  · intro part
    by_cases hpart : part ∈ parts
    · have hm : (part.name.toList, .table .headed (g.entriesOf order part)) ∈
          (g.tablesOf parts order).map Table.entry :=
        List.mem_map.mpr ⟨_, List.mem_map.mpr ⟨part, hpart, rfl⟩, rfl⟩
      rw [Toml.lookup_of_mem (hkeys ▸ nodup_names h.parts_once g order) hm]
      exact .table .headed (h.standsUnder part)
    · have hname : part.name.toList ∉ Toml.keys ((g.tablesOf parts order).map Table.entry) := by
        rw [hkeys]
        intro hm
        obtain ⟨t, ht, heq⟩ := List.mem_map.mp hm
        obtain ⟨p, hp, rfl⟩ := List.mem_map.mp ht
        exact hpart (Section.eq_of_name heq ▸ hp)
      rw [Toml.lookup_eq_none hname]
      refine .absent fun s hs => ?_
      by_contra hgiven
      exact hpart (hs ▸ (h.complete s hgiven).2)
  · intro key hkey
    rw [hkeys] at hkey
    obtain ⟨t, ht, rfl⟩ := List.mem_map.mp hkey
    obtain ⟨part, -, rfl⟩ := List.mem_map.mp ht
    exact ⟨part, rfl⟩

theorem written_linesOf (g : Given) (order : List Setting) (part : Section) :
    List.Forall₂ Written (g.linesOf order part) (g.entriesOf order part) := by
  unfold linesOf entriesOf
  rw [List.forall₂_map_left_iff, List.forall₂_map_right_iff]
  exact List.forall₂_same.mpr fun ⟨s, a⟩ _ => written s.isBare_key (Kind.shows_write a)

theorem lines_textChars (g : Given) (parts : List Section) (order : List Setting) :
    Lines (g.textChars parts order) ((g.tablesOf parts order).flatMap Table.statements) := by
  induction parts with
  | nil => exact .nil
  | cons part parts ih =>
    exact lines_table part.name part.isBare_name (written_linesOf g order part) ih

/-- Whatever is given can be written, in whatever order. -/
theorem Layout.isText (h : g.Layout parts order) : g.IsText (g.text parts order) := by
  refine ⟨_, ?_, h.standsIn⟩
  have hlines := lines_textChars g parts order
  rw [text, String.toList_ofList]
  cases parts with
  | nil => rfl
  | cons part parts =>
    refine hlines.read? (by decide) (nodup_names h.parts_once g order) fun t ht => ?_
    obtain ⟨p, -, rfl⟩ := List.mem_map.mp ht
    exact nodup_entriesOf h.order_once g p

end Given

/-! ### Defaults -/

open Given (nothing)

/-- The content of a file is read as its text. -/
theorem loadConfig_ofString (path : String) (t : String) :
    Cli.loadConfig path (some (Utf8.ofString t)) =
      (parse t).mapError fun _ => Cli.loadError path := by
  rw [Cli.loadConfig, load, Utf8.ofString, Utf8.decode?_encode]
  simp only [String.ofList_toList]

/-- **Settings that are left out have their defaults.** Whatever values are given for whatever
settings, in a text of whatever form, with tables that are left out or are empty: what is read is
the default configuration with exactly these settings replaced, if it makes sense, and what is wrong
with that configuration otherwise; and no setting has an effect on another. There are such texts,
with the tables and settings in every order. A file that gives no setting comes to the same as no
file. -/
theorem parse_given (g : Given) :
    (∀ t, g.IsText t → parse t = g.config.validate.map fun _ => g.config) ∧
    (∀ s : Setting, s.get g.config = (g s).getD (s.get {})) ∧
    (∀ parts order, g.Layout parts order → g.IsText (g.text parts order)) ∧
    ∀ path, Cli.loadConfig path none = .ok nothing.config ∧
      ∀ t, nothing.IsText t → Cli.loadConfig path (some (Utf8.ofString t)) =
        Cli.loadConfig path none := by
  refine ⟨fun t h => h.parse, g.get_config, fun parts order h => h.isText, fun path => ⟨rfl, ?_⟩⟩
  intro t h
  have hvalid : nothing.config.validate = .ok () := by decide +kernel
  rw [loadConfig_ofString, h.parse, hvalid]
  rfl

/-- Two settings of the connection that make no sense. -/
def spoiled : Given
  | .eventBuffer => some (0 : UInt64)
  | .commandPrefix => some "a b"
  | _ => none

/-- They are given by dotted keys, one in hexadecimal and one in quotes, besides an empty table. -/
def spoiledText : String :=
  "service = \x7b\x7d\ndaemon.event_buffer = 0x0 # none\ndaemon.'command_prefix' = \"a b\"\n"

theorem isText_spoiled : spoiled.IsText spoiledText := by
  have hread : Toml.read? spoiledText.toList = some [("service".toList, .table .braced []),
      ("daemon".toList, .table .dotted
        [("event_buffer".toList, .integer 0), ("command_prefix".toList, .text "a b".toList)])] := by
    with_unfolding_all rfl
  refine ⟨_, hread, fun part => ?_, ?_⟩
  · cases part with
    | daemon =>
      refine .table .dotted ⟨fun s hs => ?_, ?_⟩
      · cases s with
        | eventBuffer => exact .some (.usual (k := .number) 0)
        | commandPrefix => exact .some (.usual (k := .text) "a b")
        | serviceSocketPath => cases hs
        | logLevel => cases hs
        | _ => exact .none
      · exact List.forall_mem_cons.mpr ⟨⟨.eventBuffer, rfl, rfl⟩,
          List.forall_mem_singleton.mpr ⟨.commandPrefix, rfl, rfl⟩⟩
    | service =>
      refine .table .braced ⟨fun s hs => ?_, fun key hkey => absurd hkey List.not_mem_nil⟩
      cases s with
      | serviceSocketPath => exact .none
      | _ => cases hs
    | logging =>
      refine .absent fun s hs => ?_
      cases s with
      | logLevel => rfl
      | _ => cases hs
  · exact List.forall_mem_cons.mpr ⟨⟨.service, rfl⟩,
      List.forall_mem_singleton.mpr ⟨.daemon, rfl⟩⟩

/-- The prefix is checked before the events. -/
theorem parse_given_spoiled : spoiled.IsText spoiledText ∧
    parse spoiledText = .error (.validation
      "daemon.command_prefix must be a single word without quotes or backslashes, got \"a b\"") :=
  ⟨isText_spoiled, ((parse_given spoiled).1 spoiledText isText_spoiled).trans (by decide +kernel)⟩

end AppConfig
end EfsControl
