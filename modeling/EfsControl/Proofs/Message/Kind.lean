/-
# Every kind of message comes back

Requests and answers of all kinds are read from what is written of them. The
order of the fields does not matter, nor do fields of other names, whatever
they hold; only whether the system starts may be left out, where it does not.
Every other object is refused: one that lacks a field, and one that has a
field twice.

Key definitions: `MessageKind`, `MessageKind.Content`, `MessageKind.Carries`.
Key theorems: `MessageKind.default?_eq`, `MessageKind.read_document`.
-/
import EfsControl.Proofs.Message

namespace EfsControl

open Json (IsDocument declared)

/-- The kinds of requests and answers. -/
inductive MessageKind
  | storagePath
  | storagePassword
  | storageChangePassword
  | user
  | userPassword
  | userUnlock
  | userChangePassword
  | result
  | health
  | status
  | stop
  | config
  | error
  deriving DecidableEq, Repr

namespace MessageKind

/-- The messages of a kind. -/
def Content : MessageKind → Type
  | storagePath => StoragePathRequest
  | storagePassword => StoragePasswordRequest
  | storageChangePassword => StorageChangePasswordRequest
  | user => UserRequest
  | userPassword => UserPasswordRequest
  | userUnlock => UserUnlockRequest
  | userChangePassword => UserChangePasswordRequest
  | result => ResultResponse
  | health => HealthResponse
  | status => StatusResponse
  | stop => StopResponse
  | config => ConfigResponse
  | error => ErrorResponse

instance : (kind : MessageKind) → Message kind.Content
  | storagePath => inferInstanceAs (Message StoragePathRequest)
  | storagePassword => inferInstanceAs (Message StoragePasswordRequest)
  | storageChangePassword => inferInstanceAs (Message StorageChangePasswordRequest)
  | user => inferInstanceAs (Message UserRequest)
  | userPassword => inferInstanceAs (Message UserPasswordRequest)
  | userUnlock => inferInstanceAs (Message UserUnlockRequest)
  | userChangePassword => inferInstanceAs (Message UserChangePasswordRequest)
  | result => inferInstanceAs (Message ResultResponse)
  | health => inferInstanceAs (Message HealthResponse)
  | status => inferInstanceAs (Message StatusResponse)
  | stop => inferInstanceAs (Message StopResponse)
  | config => inferInstanceAs (Message ConfigResponse)
  | error => inferInstanceAs (Message ErrorResponse)

instance : (kind : MessageKind) → LawfulMessage kind.Content
  | storagePath => inferInstanceAs (LawfulMessage StoragePathRequest)
  | storagePassword => inferInstanceAs (LawfulMessage StoragePasswordRequest)
  | storageChangePassword => inferInstanceAs (LawfulMessage StorageChangePasswordRequest)
  | user => inferInstanceAs (LawfulMessage UserRequest)
  | userPassword => inferInstanceAs (LawfulMessage UserPasswordRequest)
  | userUnlock => inferInstanceAs (LawfulMessage UserUnlockRequest)
  | userChangePassword => inferInstanceAs (LawfulMessage UserChangePasswordRequest)
  | result => inferInstanceAs (LawfulMessage ResultResponse)
  | health => inferInstanceAs (LawfulMessage HealthResponse)
  | status => inferInstanceAs (LawfulMessage StatusResponse)
  | stop => inferInstanceAs (LawfulMessage StopResponse)
  | config => inferInstanceAs (LawfulMessage ConfigResponse)
  | error => inferInstanceAs (LawfulMessage ErrorResponse)

variable {kind : MessageKind}

/-- The one field that may be left out, and what it then holds. -/
theorem default?_eq : ∀ f ∈ Message.fields kind.Content,
    f.default? = if f.name = "from_init" then some (.flag false) else none := by
  cases kind <;> decide

/-- The object carries a message: no declared name comes twice, and under the name of each field the
object has what is written of it, unless it is `from_init`, left out because it is false. The
entries may be in any order, with others among them. -/
structure Carries (m : kind.Content) (es : List (String × List Char)) : Prop where
  once : (declared (Message.fields kind.Content) es).Nodup
  each : ∀ x ∈ (Message.fields kind.Content).zip (Message.toValues m),
    (x.1.name, x.2.toJson.write) ∈ es ∨
      x.1.name = "from_init" ∧ x.2 = .flag false ∧ x.1.name ∉ es.map (·.1)

theorem Carries.gives {m : kind.Content} {es : List (String × List Char)} (h : Carries m es) :
    Json.Gives (Message.fields kind.Content) (Message.toValues m) es where
  once := h.once
  each x hx := (h.each x hx).imp_right fun ⟨hname, hvalue, hout⟩ => by
    rw [default?_eq _ (List.of_mem_zip hx).1, if_pos hname, hvalue]
    exact ⟨hout, rfl⟩

/-- **Messages survive JSON.** A message of any kind is read from what is written of it, as a text
and as bytes, and from every object that carries it, with whatever fields of other names and
whatever blanks. An object that lacks any field but `from_init`, or has a declared name twice, is no
message. A password is written as the bare text and read from it. -/
theorem read_document (kind : MessageKind) (m : kind.Content) :
    Message.read kind.Content (Message.write m) = .ok m ∧
    Message.readBytes kind.Content (Utf8.ofString (Message.write m)) = .ok m ∧
    (∀ es t, IsDocument es t → Carries m es →
      Message.read kind.Content (String.ofList t) = .ok m) ∧
    (∀ es t, IsDocument es t →
      (∃ f ∈ Message.fields kind.Content, f.name ≠ "from_init" ∧ f.name ∉ es.map (·.1)) ∨
        ¬ (declared (Message.fields kind.Content) es).Nodup →
      ∃ fault, Message.read kind.Content (String.ofList t) = .error fault) ∧
    ∀ p : Password, p.writeJson.toList = (Json.Value.text p.expose.toList).write ∧
      Password.readJson p.writeJson = .ok p := by
  refine ⟨Message.read_write m, Message.readBytes_write m,
    fun es t hd hc => Message.read_of_gives hd hc.gives, fun es t hd h => ?_,
    Password.readJson_writeJson⟩
  refine Message.read_error hd (h.imp_left ?_)
  rintro ⟨f, hf, hname, hmissing⟩
  exact ⟨f, hf, by rw [default?_eq f hf, if_neg hname], hmissing⟩

/-- A request to unlock a user's data, written by somebody else: a field that nobody asked for comes
first, the others in another order, and `from_init` is left out. -/
def unlockEntries : List (String × List Char) :=
  [("extra", "[1.5E+3,\x7b\"a\":\"\\ud800\"\x7d]".toList),
    ("password", "\"p\\\"\"".toList), ("user_id", "10".toList)]

/-- The text of the request. -/
def unlockText : List Char :=
  ("\x7b\"extra\":[1.5E+3,\x7b\"a\":\"\\ud800\"\x7d], \"password\":\"p\\\"\"," ++
    "\"user_id\":10\x7d").toList

theorem isDocument_unlock : IsDocument unlockEntries unlockText := by
  have hnumber : Json.IsNumber ['1', '.', '5', 'E', '+', '3'] := by
    have hdigits (d : Char) (h : d.isDigit = true) : Json.IsDigits [d] :=
      ⟨by simp, by simpa using h⟩
    exact .mk (.inl rfl) ⟨hdigits '1' rfl, .inr (by decide)⟩ (.digits (hdigits '5' rfl))
      (.digits rfl (.inr (.inr rfl)) (hdigits '3' rfl))
  have hspells (s : String) : Json.Spells (s.toList.flatMap Json.escapeChar) s.toList :=
    Json.spells_escaped s.toList
  have hsurrogate : Json.IsText ['\\', 'u', 'd', '8', '0', '0'] :=
    .code (.mk (w := 'd') rfl rfl rfl rfl) .nil
  have hnested : Json.IsValue "\x7b\"a\":\"\\ud800\"\x7d".toList :=
    .object (.last .tight (hspells "a").isText (.text hsurrogate))
  have hextra : Json.IsValue "[1.5E+3,\x7b\"a\":\"\\ud800\"\x7d]".toList :=
    .array (.more Json.blanks_nil (.number hnumber) Json.blanks_nil
      (.last Json.blanks_nil hnested Json.blanks_nil))
  have hfields := Json.IsFields.more .tight (hspells "extra").isText hextra
    (.more
      { Json.Spacing.tight with
        before := [' ']
        before_blank := by simp [Json.Blanks, Json.isBlank] }
      (hspells "password").isText (Json.isValue_write (.text "p\"".toList))
      (.last .tight (hspells "user_id").isText (Json.isValue_write (.integer 10))))
  refine ⟨[], _, [], Json.blanks_nil, .fields hfields ?_, Json.blanks_nil, by decide +kernel⟩
  exact .cons ⟨hspells "extra", rfl⟩ (.cons ⟨hspells "password", rfl⟩
    (.cons ⟨hspells "user_id", rfl⟩ .nil))

theorem carries_unlock :
    @Carries userUnlock (UserUnlockRequest.mk 10 false ⟨"p\""⟩) unlockEntries :=
  ⟨by decide +kernel, by decide +kernel⟩

/-- It is read as the request that it carries. -/
theorem read_document_unlock :
    Message.read userUnlock.Content (String.ofList unlockText) =
      .ok (UserUnlockRequest.mk 10 false ⟨"p\""⟩) :=
  (read_document userUnlock (UserUnlockRequest.mk 10 false ⟨"p\""⟩)).2.2.1 unlockEntries
    unlockText isDocument_unlock carries_unlock

end MessageKind
end EfsControl
