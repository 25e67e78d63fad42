/-
# Messages come back

What the fields of a message hold fits the fields, and a message is made of
these values again. So a message is read from its own JSON, as a text and as
the bytes of a body, and from every other object that gives its fields the
same values. An object that lacks a field, or has one twice, is no message.

Key definitions: `LawfulMessage`, `IsDocument`.
Key theorems: `Message.read_of_gives`, `Message.read_error`, `Message.read_write`,
`Message.readBytes_ofString`, `Message.readBytes_write`.
-/
import EfsControl.Message
import EfsControl.Proofs.Json.Record
import EfsControl.Proofs.Text.Utf8

namespace EfsControl

open Json (Field FieldKind FieldValue Fault)

/-- A type of messages whose fields have different names and may hold what they are given, and
whose messages are made of what their fields hold. -/
class LawfulMessage (α : Type) [Message α] : Prop where
  names_nodup : ((Message.fields α).map (·.name)).Nodup
  length_toValues : ∀ m : α, (Message.toValues m).length = (Message.fields α).length
  holds : ∀ m : α, ∀ x ∈ (Message.fields α).zip (Message.toValues m), x.1.kind.Holds x.2
  ofValues_toValues : ∀ m : α, Message.ofValues? (Message.toValues m) = some m

/-- A text that is an object and blanks around it. -/
def Json.IsDocument (es : List (String × List Char)) (t : List Char) : Prop :=
  ∃ b object b', Blanks b ∧ IsObject es object ∧ Blanks b' ∧ t = b ++ (object ++ b')

namespace Message

open Json (IsDocument IsObject Gives)

variable {α : Type} [Message α]

/-- A message is read from any object that gives its fields their values. -/
theorem read_of_gives [LawfulMessage α] {m : α} {es : List (String × List Char)} {t : List Char}
    (hd : IsDocument es t) (hg : Gives (fields α) (toValues m) es) :
    read α (String.ofList t) = .ok m := by
  obtain ⟨b, object, b', hb, ho, hb', rfl⟩ := hd
  have hread := Json.readRecord_gives LawfulMessage.names_nodup (LawfulMessage.length_toValues m)
    (LawfulMessage.holds m) hg ho b'
  have hend : (Json.skipBlanks b').isEmpty = true := by
    have h := Json.skipBlanks_append hb' []
    rw [List.append_nil] at h
    rw [h]
    rfl
  rw [read, readWith, Json.readDocument, String.toList_ofList, Json.readRecord_blanks hb, hread]
  simp only [bind, Except.bind, hend, if_true, pure, Except.pure, LawfulMessage.ofValues_toValues]

/-- No message is read from an object that lacks a field without a default, or has the name of a
field twice. -/
theorem read_error {es : List (String × List Char)} {t : List Char} (hd : IsDocument es t)
    (h : (∃ f ∈ fields α, f.default? = none ∧ f.name ∉ es.map (·.1)) ∨
      ¬ (Json.declared (fields α) es).Nodup) :
    ∃ fault, read α (String.ofList t) = .error fault := by
  obtain ⟨b, object, b', hb, ho, hb', rfl⟩ := hd
  rw [read, readWith, Json.readDocument, String.toList_ofList, Json.readRecord_blanks hb]
  cases hread : Json.readRecord Json.readText (fields α) (object ++ b') with
  | error fault => exact ⟨fault, rfl⟩
  | ok x =>
    obtain ⟨honce, hall⟩ := Json.readRecord_ok ho hread
    rcases h with ⟨f, hf, hnone, hmissing⟩ | htwice
    · exact absurd (hall f hf hnone) hmissing
    · exact absurd honce htwice

/-- The names and values that stand in the JSON of a message. -/
def entries (m : α) : List (String × List Char) :=
  ((fields α).zip (toValues m)).map fun (f, v) => (f.name, v.toJson.write)

theorem isObject_write (m : α) : IsObject (entries m) (write m).toList := by
  have hwrite : (write m).toList = (toJson m).write := by rw [write, String.toList_ofList]
  rw [hwrite, toJson, Json.writeRecord, entries]
  generalize (fields α).zip (toValues m) = members
  cases members with
  | nil => exact .empty Json.blanks_nil
  | cons x members =>
    refine .fields (Json.isFields_write _ (List.cons_ne_nil _ _)) ?_
    rw [Json.Names, List.map_map, List.forall₂_map_left_iff, List.forall₂_map_right_iff]
    exact List.forall₂_same.mpr fun x _ => ⟨Json.spells_escaped _, rfl⟩

theorem gives_entries [LawfulMessage α] (m : α) :
    Gives (fields α) (toValues m) (entries m) where
  once := by
    have hlen : (toValues m).length = (fields α).length := LawfulMessage.length_toValues m
    have hfst : ((fields α).zip (toValues m)).map (·.1) = fields α := List.map_fst_zip (by omega)
    have hnames : (entries m).map (·.1) = (fields α).map (·.name) := by
      rw [entries, List.map_map, ← congrArg (List.map (·.name)) hfst, List.map_map]
      rfl
    rw [Json.declared, hnames]
    exact LawfulMessage.names_nodup.filter _
  each x hx := .inl (List.mem_map.mpr ⟨x, hx, rfl⟩)

/-- A message is read from its JSON. -/
theorem read_write [LawfulMessage α] (m : α) : read α (write m) = .ok m := by
  have hd : IsDocument (entries m) (write m).toList :=
    ⟨[], _, [], Json.blanks_nil, isObject_write m, Json.blanks_nil, by simp⟩
  have h := read_of_gives hd (gives_entries m)
  rwa [String.ofList_toList] at h

/-- A body is read as the text that it is the bytes of. -/
theorem readBytes_ofString (s : String) : readBytes α (Utf8.ofString s) = read α s := by
  rw [readBytes, Utf8.ofString, Utf8.decodeMarked_encode]
  simp only [Json.readUnmarked_nil, read]

/-- A message is read from the bytes of its JSON. -/
theorem readBytes_write [LawfulMessage α] (m : α) :
    readBytes α (Utf8.ofString (write m)) = .ok m := by rw [readBytes_ofString, read_write]

/-- A byte that is no text may stand in a value that is read over. -/
example : readBytes StoragePathRequest
    (Utf8.ofString "\x7b\"path\":\"/a\",\"x\":\"" ++ [0xFF] ++ Utf8.ofString "\"\x7d") =
      .ok ⟨"/a"⟩ := by decide +kernel

example : readBytes StoragePathRequest
    (Utf8.ofString "\x7b\"path\":\"/a" ++ [0xFF] ++ Utf8.ofString "\"\x7d") =
      .error .malformed := by decide +kernel

end Message

/-- A password is written as the bare text, and read from it. -/
theorem Password.readJson_writeJson (p : Password) :
    p.writeJson.toList = (Json.Value.text p.expose.toList).write ∧
      Password.readJson p.writeJson = .ok p := by
  have hwrite : p.writeJson.toList = Json.writeText p.expose.toList := String.toList_ofList
  refine ⟨hwrite, ?_⟩
  have hread := Json.readTextValue_writeText p.expose []
  rw [List.append_nil] at hread
  rw [readJson, Json.readDocument, hwrite, hread]
  rfl

/-! ### Numbers in fields -/

theorem holds_unsigned32 (name : String) (n : UInt32) :
    (Field.unsigned32 name).kind.Holds (.ofUInt32 n) := by
  have hn : n.toNat < 2 ^ 32 := n.toNat_lt
  refine ⟨by omega, ?_, ?_⟩
  · simp only [UInt32.size]
    omega
  · rw [Int.natAbs_natCast]
    omega

theorem holds_unsigned64 (name : String) (n : UInt64) :
    (Field.unsigned64 name).kind.Holds (.number n.toNat) := by
  have hn : n.toNat < 2 ^ 64 := n.toNat_lt
  refine ⟨by omega, ?_, ?_⟩
  · simp only [UInt64.size]
    omega
  · rw [Int.natAbs_natCast]
    omega

theorem holds_signed32 (name : String) (n : Int32) :
    (Field.signed32 name).kind.Holds (.number n.toInt) := by
  have hl : -2 ^ 31 ≤ n.toInt := n.le_toInt
  have hg : n.toInt < 2 ^ 31 := n.toInt_lt
  refine ⟨?_, ?_, by omega⟩
  · rw [Text.leastInt32]
    omega
  · rw [Text.greatestInt32]
    omega

theorem holds_flag (name : String) (b : Bool) : (Field.flag name).kind.Holds (.flag b) := trivial

theorem holds_text (name : String) (s : String) : (Field.text name).kind.Holds (.text s) := trivial

theorem holds_secret (name : String) (p : Password) : (Field.secret name).kind.Holds (.secret p) :=
  trivial

/-! ### The messages about operations -/

instance : LawfulMessage StoragePathRequest where
  names_nodup := by decide
  length_toValues _ := rfl
  holds m := by simp [Message.fields, Message.toValues, holds_text]
  ofValues_toValues _ := rfl

instance : LawfulMessage StoragePasswordRequest where
  names_nodup := by decide
  length_toValues _ := rfl
  holds m := by simp [Message.fields, Message.toValues, holds_text, holds_secret]
  ofValues_toValues _ := rfl

instance : LawfulMessage StorageChangePasswordRequest where
  names_nodup := by decide
  length_toValues _ := rfl
  holds m := by simp [Message.fields, Message.toValues, holds_text, holds_secret]
  ofValues_toValues _ := rfl

instance : LawfulMessage UserRequest where
  names_nodup := by decide
  length_toValues _ := rfl
  holds m := by simp [Message.fields, Message.toValues, holds_unsigned32]
  ofValues_toValues m := by simp [Message.ofValues?, Message.toValues, FieldValue.ofUInt32]

instance : LawfulMessage UserPasswordRequest where
  names_nodup := by decide
  length_toValues _ := rfl
  holds m := by simp [Message.fields, Message.toValues, holds_unsigned32, holds_secret]
  ofValues_toValues m := by simp [Message.ofValues?, Message.toValues, FieldValue.ofUInt32]

instance : LawfulMessage UserUnlockRequest where
  names_nodup := by decide
  length_toValues _ := rfl
  holds m := by
    have hflag := holds_flag "from_init" m.fromInit
    simp [Message.fields, Message.toValues, holds_unsigned32, holds_secret, hflag]
  ofValues_toValues m := by simp [Message.ofValues?, Message.toValues, FieldValue.ofUInt32]

instance : LawfulMessage UserChangePasswordRequest where
  names_nodup := by decide
  length_toValues _ := rfl
  holds m := by simp [Message.fields, Message.toValues, holds_unsigned32, holds_secret]
  ofValues_toValues m := by simp [Message.ofValues?, Message.toValues, FieldValue.ofUInt32]

instance : LawfulMessage ResultResponse where
  names_nodup := by decide
  length_toValues _ := rfl
  holds m := by simp [Message.fields, Message.toValues, holds_signed32]
  ofValues_toValues m := by simp [Message.ofValues?, Message.toValues]

/-! ### The messages about the service -/

instance : LawfulMessage HealthResponse where
  names_nodup := by decide
  length_toValues _ := rfl
  holds m := by simp [Message.fields, Message.toValues, holds_text]
  ofValues_toValues _ := rfl

instance : LawfulMessage StatusResponse where
  names_nodup := by decide
  length_toValues _ := rfl
  holds m := by
    simp [Message.fields, Message.toValues, holds_text, holds_flag, holds_unsigned32,
      holds_unsigned64]
  ofValues_toValues m := by simp [Message.ofValues?, Message.toValues, FieldValue.ofUInt32]

instance : LawfulMessage StopResponse where
  names_nodup := by decide
  length_toValues _ := rfl
  holds m := by simp [Message.fields, Message.toValues, holds_text, holds_flag]
  ofValues_toValues _ := rfl

instance : LawfulMessage ConfigResponse where
  names_nodup := by decide
  length_toValues _ := rfl
  holds m := by simp [Message.fields, Message.toValues, holds_text]
  ofValues_toValues _ := rfl

instance : LawfulMessage ErrorResponse where
  names_nodup := by decide
  length_toValues _ := rfl
  holds m := by simp [Message.fields, Message.toValues, holds_text]
  ofValues_toValues _ := rfl

end EfsControl
