/-
# The settings one by one

A document gives some of the ten settings, each in its table. It describes the
default configuration with exactly these settings replaced, and a table that is
left out comes to the same as an empty one.

Key definitions: `Setting`, `Given`, `Given.config`, `Given.StandsIn`,
`Given.IsText`.
Key theorems: `Setting.missing_eq`, `Given.get_config`, `Given.StandsFor.setting_eq`,
`Given.StandsIn.ofEntries?`, `Given.IsText.parse`.
-/
import EfsControl.Config.Read
import EfsControl.Proofs.Config

namespace EfsControl
namespace AppConfig

open Toml (Entries Shows Value)

/-! ### The settings -/

/-- The tables of a configuration. -/
inductive Section
  | daemon
  | service
  | logging
  deriving DecidableEq

/-- The name of a table. -/
def Section.name : Section → String
  | daemon => "daemon"
  | service => "service"
  | logging => "logging"

theorem Section.eq_of_name {p q : Section} (h : p.name.toList = q.name.toList) : p = q := by
  revert h
  cases p <;> cases q <;> decide

theorem Section.isBare_name (p : Section) : Toml.IsBare p.name.toList := by cases p <;> decide

/-- What a setting is. -/
inductive Kind
  | text
  | framing
  | flag
  /-- A whole number of 64 bits without a sign. -/
  | number

namespace Kind

/-- The values of a setting of a kind. -/
abbrev Content : Kind → Type
  | text => String
  | framing => Framing
  | flag => Bool
  | number => UInt64

/-- How a setting of a kind is read. -/
def read : (k : Kind) → Value → Option k.Content
  | text => readString
  | framing => readFraming
  | flag => readBool
  | number => readUInt64

/-- The value as it is usually given. -/
def value : (k : Kind) → k.Content → Value
  | text, s => .text s.toList
  | framing, f => .text f.word.toList
  | flag, b => .boolean b
  | number, n => .integer n.toNat

/-- The value gives the setting. A framing may also stand as the only key of a table, with nothing
under it. -/
inductive Gives : (k : Kind) → k.Content → Value → Prop
  | usual {k : Kind} (a : k.Content) : Gives k a (k.value a)
  | key (f : Framing) (kind inner : Toml.TableKind) :
    Gives framing f (.table kind [(f.word.toList, .table inner [])])
  | keyOfArray (f : Framing) (kind : Toml.TableKind) (byHeader : Bool) :
    Gives framing f (.table kind [(f.word.toList, .array byHeader [])])

/-- The value as it is usually written. -/
def write : (k : Kind) → k.Content → List Char
  | text, s => Toml.writeText s.toList
  | framing, f => Toml.writeText f.word.toList
  | flag, b => boolWord b
  | number, n => Text.digits n.toNat

theorem read_value {k : Kind} (a : k.Content) : k.read (k.value a) = some a := by
  cases k with
  | text => exact readString_toList a
  | framing => exact readFraming_word a
  | flag => exact readBool_boolean a
  | number => exact readUInt64_toNat a

theorem Gives.read {k : Kind} {a : k.Content} {v : Value} (h : Gives k a v) :
    k.read v = some a := by
  cases h with
  | usual => exact read_value a
  | key f => cases f <;> rfl
  | keyOfArray f => cases f <;> rfl

theorem shows_write {k : Kind} (a : k.Content) : Shows (k.write a) (k.value a) := by
  cases k with
  | text => exact Toml.shows_writeText _
  | framing => exact Toml.shows_writeText _
  | flag => exact shows_boolWord a
  | number => exact Toml.shows_digits _

end Kind

/-- The settings of a configuration. -/
inductive Setting
  | daemonSocketPath
  | commandPrefix
  | framing
  | sequenceNumbers
  | commandTimeoutSecs
  | reconnectDelayMs
  | slowCommandWarnMs
  | eventBuffer
  | serviceSocketPath
  | logLevel
  deriving DecidableEq

namespace Setting

/-- All settings. -/
def all : List Setting :=
  [daemonSocketPath, commandPrefix, framing, sequenceNumbers, commandTimeoutSecs, reconnectDelayMs,
    slowCommandWarnMs, eventBuffer, serviceSocketPath, logLevel]

theorem mem_all (s : Setting) : s ∈ all := by cases s <;> decide

theorem nodup_all : all.Nodup := by decide

/-- The table that a setting stands in. -/
def part : Setting → Section
  | serviceSocketPath => .service
  | logLevel => .logging
  | _ => .daemon

/-- The key of a setting in its table. -/
def key : Setting → String
  | daemonSocketPath | serviceSocketPath => "socket_path"
  | commandPrefix => "command_prefix"
  | framing => "framing"
  | sequenceNumbers => "sequence_numbers"
  | commandTimeoutSecs => "command_timeout_secs"
  | reconnectDelayMs => "reconnect_delay_ms"
  | slowCommandWarnMs => "slow_command_warn_ms"
  | eventBuffer => "event_buffer"
  | logLevel => "level"

/-- What a setting is. -/
abbrev kind : Setting → Kind
  | framing => .framing
  | sequenceNumbers => .flag
  | commandTimeoutSecs | reconnectDelayMs | slowCommandWarnMs | eventBuffer => .number
  | daemonSocketPath | commandPrefix | serviceSocketPath | logLevel => .text

/-- The setting in a configuration. -/
def get : (s : Setting) → AppConfig → s.kind.Content
  | daemonSocketPath, c => c.daemon.socketPath
  | commandPrefix, c => c.daemon.commandPrefix
  | framing, c => c.daemon.framing
  | sequenceNumbers, c => c.daemon.sequenceNumbers
  | commandTimeoutSecs, c => c.daemon.commandTimeoutSecs
  | reconnectDelayMs, c => c.daemon.reconnectDelayMs
  | slowCommandWarnMs, c => c.daemon.slowCommandWarnMs
  | eventBuffer, c => c.daemon.eventBuffer
  | serviceSocketPath, c => c.service.socketPath
  | logLevel, c => c.logging.level

/-- The configuration with another value for the setting. -/
def set : (s : Setting) → s.kind.Content → AppConfig → AppConfig
  | daemonSocketPath, a, c => { c with daemon := { c.daemon with socketPath := a } }
  | commandPrefix, a, c => { c with daemon := { c.daemon with commandPrefix := a } }
  | framing, a, c => { c with daemon := { c.daemon with framing := a } }
  | sequenceNumbers, a, c => { c with daemon := { c.daemon with sequenceNumbers := a } }
  | commandTimeoutSecs, a, c => { c with daemon := { c.daemon with commandTimeoutSecs := a } }
  | reconnectDelayMs, a, c => { c with daemon := { c.daemon with reconnectDelayMs := a } }
  | slowCommandWarnMs, a, c => { c with daemon := { c.daemon with slowCommandWarnMs := a } }
  | eventBuffer, a, c => { c with daemon := { c.daemon with eventBuffer := a } }
  | serviceSocketPath, a, c => { c with service := { c.service with socketPath := a } }
  | logLevel, a, c => { c with logging := { c.logging with level := a } }

/-- What a setting comes to that is left out of its table. -/
def missing : (s : Setting) → s.kind.Content
  | daemonSocketPath => Default.daemonSocketPath
  | commandPrefix => Default.commandPrefix
  | framing => Default.framing
  | sequenceNumbers => Default.sequenceNumbers
  | commandTimeoutSecs => Default.commandTimeoutSecs
  | reconnectDelayMs => Default.reconnectDelayMs
  | slowCommandWarnMs => Default.slowCommandWarnMs
  | eventBuffer => Default.eventBuffer
  | serviceSocketPath => Default.serviceSocketPath
  | logLevel => Default.logLevel

/-- A setting that is left out comes to what it is in the default configuration. -/
theorem missing_eq (s : Setting) : s.missing = s.get {} := by cases s <;> rfl

variable {s t : Setting}

@[simp] theorem get_set (s : Setting) (a : s.kind.Content) (c : AppConfig) :
    s.get (s.set a c) = a := by
  cases s <;> rfl

/-- The other settings stay as they are. -/
theorem get_set_of_ne (h : t ≠ s) (a : s.kind.Content) (c : AppConfig) :
    t.get (s.set a c) = t.get c := by
  cases s <;> cases t <;> first | exact absurd rfl h | rfl

/-- A setting is known by its table and its key. -/
theorem eq_of_key (hpart : s.part = t.part) (hkey : s.key.toList = t.key.toList) : s = t := by
  replace hkey : s.key = t.key := String.toList_inj.mp hkey
  revert hpart hkey
  cases s <;> cases t <;> decide

theorem isBare_key (s : Setting) : Toml.IsBare s.key.toList := by cases s <;> decide

end Setting

/-! ### Some of the settings -/

/-- Values for some of the settings. -/
abbrev Given := (s : Setting) → Option s.kind.Content

namespace Given

/-- No values at all. -/
def nothing : Given := fun _ => none

/-- The configuration with the value of a setting, if one is given. -/
def put (g : Given) (c : AppConfig) (s : Setting) : AppConfig := (g s).elim c fun a => s.set a c

/-- The default configuration with the given settings replaced. -/
def config (g : Given) : AppConfig := Setting.all.foldl g.put {}

variable {g : Given}

theorem get_put (g : Given) (c : AppConfig) (s : Setting) :
    s.get (g.put c s) = (g s).getD (s.get c) := by
  unfold put
  cases g s with
  | none => rfl
  | some a => exact s.get_set a c

theorem get_put_of_ne {s t : Setting} (h : t ≠ s) (g : Given) (c : AppConfig) :
    t.get (g.put c s) = t.get c := by
  unfold put
  cases g s with
  | none => rfl
  | some a => exact Setting.get_set_of_ne h a c

theorem get_foldl_put (g : Given) {ss : List Setting} (hss : ss.Nodup) (s : Setting)
    (c : AppConfig) :
    s.get (ss.foldl g.put c) = if s ∈ ss then (g s).getD (s.get c) else s.get c := by
  induction ss generalizing c with
  | nil => rfl
  | cons t ss ih =>
    obtain ⟨ht, hss⟩ := List.nodup_cons.mp hss
    rw [List.foldl_cons, ih hss]
    by_cases hs : s = t
    · subst hs
      rw [if_neg ht, if_pos List.mem_cons_self, get_put]
    · simp only [List.mem_cons, hs, false_or, get_put_of_ne hs]

/-- A setting has the value that is given for it, whatever is given for others. -/
theorem get_config (g : Given) (s : Setting) : s.get g.config = (g s).getD (s.get {}) := by
  rw [config, get_foldl_put g Setting.nodup_all, if_pos s.mem_all]

/-! ### Documents -/

/-- The entries of a table give exactly these values of its settings, and nothing else. -/
structure StandsUnder (g : Given) (part : Section) (inner : Entries) : Prop where
  value : ∀ s : Setting, s.part = part →
    Option.Rel s.kind.Gives (g s) (Toml.lookup s.key.toList inner)
  known : ∀ key ∈ Toml.keys inner, ∃ s : Setting, s.part = part ∧ s.key.toList = key

/-- What stands for a table: nothing, when none of its settings is given, or the table. -/
inductive StandsFor (g : Given) (part : Section) : Option Value → Prop
  | absent (h : ∀ s : Setting, s.part = part → g s = none) : StandsFor g part none
  | table (kind : Toml.TableKind) {inner : Entries} (h : g.StandsUnder part inner) :
    StandsFor g part (some (.table kind inner))

/-- A document gives exactly these values, each in its table, and nothing else. -/
structure StandsIn (g : Given) (entries : Entries) : Prop where
  table : ∀ part : Section, g.StandsFor part (Toml.lookup part.name.toList entries)
  known : ∀ key ∈ Toml.keys entries, ∃ part : Section, part.name.toList = key

/-- A text gives exactly these values. -/
def IsText (g : Given) (t : String) : Prop :=
  ∃ entries, Toml.read? t.toList = some entries ∧ g.StandsIn entries

/-! ### Reading -/

/-- What is read of a value is what the rest goes on with. -/
theorem bind_of_some {α β : Type} {x : Option α} {a : α} {f : α → Option β} {r : Option β}
    (h : x = some a) (hf : f a = r) : (x >>= f) = r := by
  rw [h]
  exact hf

/-- A setting is read as what it is in the configuration, whether it is given or not. -/
theorem setting_eq {s : Setting} {v? : Option Value} (h : Option.Rel s.kind.Gives (g s) v?) :
    setting s.kind.read s.missing v? = some (s.get g.config) := by
  rw [get_config, s.missing_eq]
  revert h
  generalize g s = a?
  rintro (⟨ha⟩ | _)
  · exact ha.read
  · rfl

variable {kind : Toml.TableKind} {inner entries : Entries}

/-- The settings of a table are read by their keys. -/
theorem StandsUnder.fields?_eq {part : Section} {names : List String}
    (h : g.StandsUnder part inner)
    (hnames : ∀ s ∈ Setting.all, s.part = part → s.key.toList ∈ names.map String.toList) :
    fields? names (.table kind inner) = some fun name => Toml.lookup name.toList inner := by
  refine fields?_of_known fun key hkey => ?_
  obtain ⟨s, hs, rfl⟩ := h.known key hkey
  exact hnames s s.mem_all hs

theorem StandsUnder.readDaemon (h : g.StandsUnder .daemon inner) :
    readDaemon (.table kind inner) = some g.config.daemon := by
  rw [AppConfig.readDaemon]
  refine bind_of_some (h.fields?_eq (by decide)) ?_
  refine bind_of_some (setting_eq (h.value .daemonSocketPath rfl)) ?_
  refine bind_of_some (setting_eq (h.value .commandPrefix rfl)) ?_
  refine bind_of_some (setting_eq (h.value .framing rfl)) ?_
  refine bind_of_some (setting_eq (h.value .sequenceNumbers rfl)) ?_
  refine bind_of_some (setting_eq (h.value .commandTimeoutSecs rfl)) ?_
  refine bind_of_some (setting_eq (h.value .reconnectDelayMs rfl)) ?_
  refine bind_of_some (setting_eq (h.value .slowCommandWarnMs rfl)) ?_
  exact bind_of_some (setting_eq (h.value .eventBuffer rfl)) rfl

theorem StandsUnder.readService (h : g.StandsUnder .service inner) :
    readService (.table kind inner) = some g.config.service := by
  rw [AppConfig.readService]
  refine bind_of_some (h.fields?_eq (by decide)) ?_
  exact bind_of_some (setting_eq (h.value .serviceSocketPath rfl)) rfl

theorem StandsUnder.readLogging (h : g.StandsUnder .logging inner) :
    readLogging (.table kind inner) = some g.config.logging := by
  rw [AppConfig.readLogging]
  refine bind_of_some (h.fields?_eq (by decide)) ?_
  exact bind_of_some (setting_eq (h.value .logLevel rfl)) rfl

/-- A table that is left out comes to the same as one without settings. -/
theorem StandsFor.setting_eq {α : Type} {read : Value → Option α} {default a : α} {part : Section}
    {v? : Option Value} (h : g.StandsFor part v?)
    (hempty : read (.table .headed []) = some default)
    (hread : ∀ {kind inner}, g.StandsUnder part inner → read (.table kind inner) = some a) :
    setting read default v? = some a := by
  cases h with
  | absent hnone =>
    have hunder : g.StandsUnder part [] := by
      refine ⟨fun s hs => ?_, fun key hkey => absurd hkey List.not_mem_nil⟩
      rw [hnone s hs]
      exact .none
    show some default = some a
    rw [← hempty, hread hunder]
  | table kind hunder => exact hread hunder

/-- A document describes the configuration of its settings. -/
theorem StandsIn.ofEntries? (h : g.StandsIn entries) : ofEntries? entries = some g.config := by
  rw [AppConfig.ofEntries?, fields?_of_known]
  · refine bind_of_some rfl ?_
    refine bind_of_some ((h.table .daemon).setting_eq rfl StandsUnder.readDaemon) ?_
    refine bind_of_some ((h.table .service).setting_eq rfl StandsUnder.readService) ?_
    exact bind_of_some ((h.table .logging).setting_eq rfl StandsUnder.readLogging) rfl
  · intro key hkey
    obtain ⟨part, rfl⟩ := h.known key hkey
    cases part <;> decide

/-- A text is read as the configuration of its settings, if that makes sense. -/
theorem IsText.parse {t : String} (h : g.IsText t) :
    parse t = g.config.validate.map fun _ => g.config := by
  obtain ⟨entries, hread, hstands⟩ := h
  rw [AppConfig.parse, hread, Option.bind_some, hstands.ofEntries?]

end Given
end AppConfig
end EfsControl
