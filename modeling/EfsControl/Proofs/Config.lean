/-
# A configuration survives being written

Every setting is written so that it is read back as the value that it is, and
every table as the table of its settings. The text of a configuration therefore
describes that configuration, and a configuration whose settings make sense is
the one that its text gives.

Key definitions: `AppConfig.tables`.
Key theorems: `AppConfig.read?_pretty`, `AppConfig.ofEntries?_tables`,
`AppConfig.parse_pretty`.
-/
import EfsControl.Config.Read
import EfsControl.Proofs.Toml.Document

namespace EfsControl
namespace AppConfig

open Toml (Entries IsBare Lines Shows Statement Table Value)

/-! ### The lines of a configuration -/

/-- The setting is written as the entry. -/
structure Written (setting : String × List Char) (entry : List Char × Value) : Prop where
  key : entry.1 = setting.1.toList
  bare : IsBare entry.1
  value : Shows setting.2 entry.2

theorem written {name : String} {t : List Char} {v : Value} (hb : IsBare name.toList)
    (hv : Shows t v) : Written (name, t) (name.toList, v) := ⟨rfl, hb, hv⟩

/-- Settings are lines with their entries. -/
theorem lines_settings {settings : List (String × List Char)} {entries : Entries} {cs : List Char}
    {ss : List Statement} (h : List.Forall₂ Written settings entries) (hl : Lines cs ss) :
    Lines ((settings.flatMap fun (k, v) => settingLine k v) ++ cs)
      ((entries.map fun (k, v) => Statement.entry ⟨[], k⟩ v) ++ ss) := by
  induction h with
  | nil => exact hl
  | @cons setting entry settings entries hw _ ih =>
    obtain ⟨name, t⟩ := setting
    obtain ⟨key, v⟩ := entry
    obtain rfl : key = name.toList := hw.key
    have hequals : " = ".toList = [' ', '=', ' '] := by decide
    have hline : ((name, t) :: settings).flatMap (fun (k, v) => settingLine k v) ++ cs =
        name.toList ++ ' ' :: '=' :: ' ' ::
          (t ++ '\n' :: ((settings.flatMap fun (k, v) => settingLine k v) ++ cs)) := by
      simp [settingLine, hequals]
    rw [hline]
    exact .entry hw.bare hw.value ih

/-- A table is lines with its header and its entries. -/
theorem lines_table (name : String) {settings : List (String × List Char)} {entries : Entries}
    {cs : List Char} {ss : List Statement} (hname : IsBare name.toList)
    (h : List.Forall₂ Written settings entries) (hl : Lines cs ss) :
    Lines (tableLines name settings ++ cs) ((Table.mk name.toList entries).statements ++ ss) := by
  have htable : tableLines name settings ++ cs = '[' :: (name.toList ++ ']' :: '\n' ::
      ((settings.flatMap fun (k, v) => settingLine k v) ++ cs)) := by
    simp [tableLines]
  rw [htable]
  exact .header hname (lines_settings h hl)

/-! ### The entries of a configuration -/

/-- The settings of the connection as entries. -/
def daemonEntries (c : DaemonConfig) : Entries :=
  [("socket_path".toList, .text c.socketPath.toList),
   ("command_prefix".toList, .text c.commandPrefix.toList),
   ("framing".toList, .text c.framing.word.toList),
   ("sequence_numbers".toList, .boolean c.sequenceNumbers),
   ("command_timeout_secs".toList, .integer c.commandTimeoutSecs.toNat),
   ("reconnect_delay_ms".toList, .integer c.reconnectDelayMs.toNat),
   ("slow_command_warn_ms".toList, .integer c.slowCommandWarnMs.toNat),
   ("event_buffer".toList, .integer c.eventBuffer.toNat)]

/-- The settings of the service as entries. -/
def serviceEntries (c : ServiceConfig) : Entries :=
  [("socket_path".toList, .text c.socketPath.toList)]

/-- The settings of the log as entries. -/
def loggingEntries (c : LoggingConfig) : Entries := [("level".toList, .text c.level.toList)]

/-- The tables of a configuration. -/
def tables (c : AppConfig) : List Table :=
  [⟨"daemon".toList, daemonEntries c.daemon⟩, ⟨"service".toList, serviceEntries c.service⟩,
   ⟨"logging".toList, loggingEntries c.logging⟩]

theorem shows_boolWord (b : Bool) : Shows (boolWord b) (.boolean b) := by
  cases b with
  | false => exact Toml.shows_of_readScalar? (by decide) (by decide) rfl
  | true => exact Toml.shows_of_readScalar? (by decide) (by decide) rfl

theorem written_daemon (c : DaemonConfig) :
    List.Forall₂ Written (daemonSettings c) (daemonEntries c) := by
  refine .cons (written (by decide) (Toml.shows_writeText _)) ?_
  refine .cons (written (by decide) (Toml.shows_writeText _)) ?_
  refine .cons (written (by decide) (Toml.shows_writeText _)) ?_
  refine .cons (written (by decide) (shows_boolWord _)) ?_
  refine .cons (written (by decide) (Toml.shows_digits _)) ?_
  refine .cons (written (by decide) (Toml.shows_digits _)) ?_
  refine .cons (written (by decide) (Toml.shows_digits _)) ?_
  exact .cons (written (by decide) (Toml.shows_digits _)) .nil

theorem written_service (c : ServiceConfig) :
    List.Forall₂ Written (serviceSettings c) (serviceEntries c) :=
  .cons (written (by decide) (Toml.shows_writeText _)) .nil

theorem written_logging (c : LoggingConfig) :
    List.Forall₂ Written (loggingSettings c) (loggingEntries c) :=
  .cons (written (by decide) (Toml.shows_writeText _)) .nil

/-- The text of a configuration is lines with its tables. -/
theorem lines_pretty (c : AppConfig) :
    Lines c.prettyChars (c.tables.flatMap Table.statements) := by
  have hlogging := lines_table "logging" (by decide) (written_logging c.logging) .nil
  have hservice := lines_table "service" (by decide) (written_service c.service)
    (.empty hlogging)
  have hdaemon := lines_table "daemon" (by decide) (written_daemon c.daemon)
    (.empty hservice)
  simpa [prettyChars, tables] using hdaemon

theorem nodup_daemon (c : DaemonConfig) : (Toml.keys (daemonEntries c)).Nodup := by
  show (["socket_path", "command_prefix", "framing", "sequence_numbers", "command_timeout_secs",
    "reconnect_delay_ms", "slow_command_warn_ms", "event_buffer"].map String.toList).Nodup
  decide

/-- The text of a configuration is read as its tables. -/
theorem read?_pretty (c : AppConfig) :
    Toml.read? c.prettyChars = some (c.tables.map Table.entry) := by
  have hfront : ∃ cs, c.prettyChars = '[' :: cs := ⟨_, rfl⟩
  obtain ⟨cs, hcs⟩ := hfront
  have hlines := lines_pretty c
  rw [hcs] at hlines ⊢
  refine hlines.read? (by decide) ?_ ?_
  · show ["daemon".toList, "service".toList, "logging".toList].Nodup
    decide
  · intro t ht
    simp only [tables, List.mem_cons, List.not_mem_nil, or_false] at ht
    rcases ht with rfl | rfl | rfl
    · exact nodup_daemon c.daemon
    · exact List.nodup_singleton _
    · exact List.nodup_singleton _

/-! ### Reading the entries -/

theorem readUInt64_toNat (n : UInt64) : readUInt64 (.integer n.toNat) = some n := by
  have hrange : ((0 : Int) ≤ (n.toNat : Int) && (n.toNat : Int) < UInt64.size) = true := by
    have := n.toNat_lt
    simp; omega
  rw [readUInt64, if_pos hrange]
  simp

theorem readFraming_word (f : Framing) : readFraming (.text f.word.toList) = some f := by
  cases f <;> rfl

theorem readString_toList (s : String) : readString (.text s.toList) = some s := by
  rw [readString, String.ofList_toList]

theorem readBool_boolean (b : Bool) : readBool (.boolean b) = some b := rfl

/-- The settings of a table whose keys are all known are those that stand in it. -/
theorem fields?_of_known {names : List String} {kind : Toml.TableKind} {entries : Entries}
    (h : ∀ key ∈ Toml.keys entries, key ∈ names.map String.toList) :
    fields? names (.table kind entries) = some fun name => Toml.lookup name.toList entries := by
  have hall : (entries.all fun (k, v) =>
      (names.map String.toList).contains k || Toml.representable v) = true := by
    rw [List.all_eq_true]
    intro entry hentry
    have hkey := h entry.1 (List.mem_map.mpr ⟨entry, hentry, rfl⟩)
    simp only [List.contains_eq_mem, hkey, decide_true, Bool.true_or]
  exact if_pos hall

/-- A setting that stands in its table is read from its value. -/
theorem bind_setting {α β : Type} {read : Value → Option α} {default a : α} {key : List Char}
    {entries : Entries} {v : Value} (hv : Toml.lookup key entries = some v) (h : read v = some a)
    (f : α → Option β) : (setting read default (Toml.lookup key entries) >>= f) = f a := by
  rw [hv, setting, h]
  rfl

theorem readDaemon_entries (c : DaemonConfig) :
    readDaemon (.table .headed (daemonEntries c)) = some c := by
  rw [readDaemon, fields?_of_known]
  · rw [Option.bind_eq_bind, Option.bind_some,
      bind_setting rfl (readString_toList c.socketPath),
      bind_setting rfl (readString_toList c.commandPrefix),
      bind_setting rfl (readFraming_word c.framing),
      bind_setting rfl (readBool_boolean c.sequenceNumbers),
      bind_setting rfl (readUInt64_toNat c.commandTimeoutSecs),
      bind_setting rfl (readUInt64_toNat c.reconnectDelayMs),
      bind_setting rfl (readUInt64_toNat c.slowCommandWarnMs),
      bind_setting rfl (readUInt64_toNat c.eventBuffer)]
    rfl
  · exact fun _ h => h

theorem readService_entries (c : ServiceConfig) :
    readService (.table .headed (serviceEntries c)) = some c := by
  rw [readService, fields?_of_known]
  · rw [Option.bind_eq_bind, Option.bind_some, bind_setting rfl (readString_toList c.socketPath)]
    rfl
  · exact fun _ h => h

theorem readLogging_entries (c : LoggingConfig) :
    readLogging (.table .headed (loggingEntries c)) = some c := by
  rw [readLogging, fields?_of_known]
  · rw [Option.bind_eq_bind, Option.bind_some, bind_setting rfl (readString_toList c.level)]
    rfl
  · exact fun _ h => h

/-- The tables of a configuration describe it. -/
theorem ofEntries?_tables (c : AppConfig) : ofEntries? (c.tables.map Table.entry) = some c := by
  rw [ofEntries?, fields?_of_known]
  · rw [Option.bind_eq_bind, Option.bind_some, bind_setting rfl (readDaemon_entries c.daemon),
      bind_setting rfl (readService_entries c.service),
      bind_setting rfl (readLogging_entries c.logging)]
    rfl
  · exact fun _ h => h

/-- Whether a configuration makes sense or not, its text describes it. -/
theorem parse_pretty_eq (c : AppConfig) : parse c.pretty = c.validate.map fun _ => c := by
  have hchars : c.pretty.toList = c.prettyChars := String.toList_ofList
  rw [parse, hchars, read?_pretty, Option.bind_some, ofEntries?_tables]

/-- A configuration whose settings make sense is read back from its text. -/
theorem parse_pretty (c : AppConfig) (h : c.validate = .ok ()) : parse c.pretty = .ok c := by
  rw [parse_pretty_eq, h]
  rfl

/-- A path that needs escapes, one that needs none between three single quotes, and the largest
numbers. -/
def unusual : AppConfig where
  daemon :=
    { socketPath := "''' \"\"\" \\ \n\r\x00\""
      commandPrefix := "é'\u200b"
      framing := .newline
      sequenceNumbers := false
      commandTimeoutSecs := 18446744073709551615
      reconnectDelayMs := 1
      slowCommandWarnMs := 0
      eventBuffer := 18446744073709551615 }
  service := { socketPath := "\n\\''\"" }
  logging := { level := "trace" }

theorem validate_unusual : unusual.validate = .ok () := by decide +kernel

theorem parse_pretty_unusual : unusual.validate = .ok () ∧ parse unusual.pretty = .ok unusual :=
  ⟨validate_unusual, parse_pretty unusual validate_unusual⟩

end AppConfig
end EfsControl
