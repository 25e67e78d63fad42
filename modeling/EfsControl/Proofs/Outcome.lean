/-
# Outcomes and their codes

The message of a successful reply means an integer, of any size, or none at
all, and the outcome depends on that integer alone. An exchange that failed is
a busy storage or a failure.

Callers get a code and no outcome. Where nothing is asked the code determines
the outcome. The answer to a query is handed on as it is, so a query whose
answer is `405` has the code of a busy storage, and that is the only code that
stands for two outcomes.

Key definitions: `Outcome.ofInteger`, `Outcome.Possible`.
Key theorems: `Outcome.decode_integer`, `Outcome.possible_decode`,
`Outcome.operationFailed_decode_iff`.
-/
import EfsControl.Outcome.Decode
import EfsControl.Proofs.Text.Integer

namespace EfsControl
namespace Outcome

variable {kind : ResultKind} {o o' : Outcome} {reply : Reply} {v : Int}

/-! ### The integer in a message -/

/-- What an integer in a successful reply means. Beyond 32 bits it is a failure. -/
def ofInteger (kind : ResultKind) (v : Int) : Outcome :=
  if -2 ^ 31 ≤ v ∧ v < 2 ^ 31 then
    match kind with
    | .status => if v = 0 then succeeded else if v = 405 then busy else internalError
    | .query => if 0 ≤ v then value (Int32.ofInt v) else internalError
  else internalError

theorem ofValue_eq (kind : ResultKind) (n : Int32) : ofValue kind n = ofInteger kind n.toInt := by
  have hzero : n = 0 ↔ n.toInt = 0 := Int32.toInt_inj.symm
  have hbusy : n = 405 ↔ n.toInt = 405 := Int32.toInt_inj.symm
  have hsign : 0 ≤ n ↔ 0 ≤ n.toInt := Int32.le_iff_toInt_le
  unfold ofInteger
  rw [if_pos ⟨n.le_toInt, n.toInt_lt⟩]
  cases kind with
  | status => simp only [ofValue, succeededCode, busyCode, hzero, hbusy]
  | query => simp only [ofValue, hsign, Int32.ofInt_toInt]

/-- A message without a number is a failure. -/
theorem decode_of_not_saysInt (h : ¬∃ v, Text.SaysInt (Text.trim reply.message.toList) v) :
    decode kind (.ok reply) = internalError := by
  have hnone : resultValue? reply.message = none := by
    rw [Option.eq_none_iff_forall_ne_some]
    intro n hn
    exact h ⟨n.toInt, Text.readInt32?_eq_some_iff.mp hn⟩
  rw [decode, hnone]

/-- A message with a number is worth what the number means. -/
theorem decode_of_saysInt (h : Text.SaysInt (Text.trim reply.message.toList) v) :
    decode kind (.ok reply) = ofInteger kind v := by
  have hread : resultValue? reply.message = _ := h.readInt32?
  rw [decode, hread]
  by_cases hrange : -2 ^ 31 ≤ v ∧ v < 2 ^ 31
  · rw [if_pos hrange]
    show ofValue kind (Int32.ofInt v) = ofInteger kind v
    rw [ofValue_eq, Int32.toInt_ofInt_of_le hrange.1 hrange.2]
  · unfold ofInteger
    rw [if_neg hrange, if_neg hrange]

/-- Of the failed exchanges only the refusal with the status `405` is a busy storage. -/
theorem decode_error_eq_busy_iff {e : ExchangeError} :
    decode kind (.error e) = busy ↔ ∃ text, e = .daemon 405 text := by
  have hbusy : e.isBusy = true ↔ ∃ text, e = .daemon 405 text := by
    cases e <;> simp [ExchangeError.isBusy, ExchangeError.code?, ExchangeError.busyStatus]
  rw [← hbusy, decode]
  split <;> simp [*]

theorem decode_error (kind : ResultKind) (e : ExchangeError) :
    decode kind (.error e) = busy ∨ decode kind (.error e) = internalError := by
  rw [decode]
  exact ite_eq_or_eq _ _ _

/-! ### The outcomes there are -/

/-- The outcomes of an exchange, for each kind of result. -/
inductive Possible : ResultKind → Outcome → Prop
  | busy (kind : ResultKind) : Possible kind .busy
  | internalError (kind : ResultKind) : Possible kind .internalError
  | succeeded : Possible .status .succeeded
  | answer {n : Int32} (h : 0 ≤ n) : Possible .query (.value n)

theorem possible_ofValue (kind : ResultKind) (n : Int32) : Possible kind (ofValue kind n) := by
  cases kind with
  | status =>
    by_cases hzero : n = succeededCode
    · rw [ofValue, if_pos hzero]
      exact .succeeded
    · by_cases hbusy : n = busyCode
      · rw [ofValue, if_neg hzero, if_pos hbusy]
        exact .busy _
      · rw [ofValue, if_neg hzero, if_neg hbusy]
        exact .internalError _
  | query =>
    by_cases hsign : 0 ≤ n
    · rw [ofValue, if_pos hsign]
      exact .answer hsign
    · rw [ofValue, if_neg hsign]
      exact .internalError _

theorem possible_decode (kind : ResultKind) (result : ExchangeResult) :
    Possible kind (decode kind result) := by
  unfold decode
  split
  · split
    · exact possible_ofValue kind _
    · exact .internalError _
  · split
    · exact .busy _
    · exact .internalError _

/-- The codes of the outcomes. -/
theorem Possible.code_status (h : Possible .status o) :
    o.code = 0 ∨ o.code = 405 ∨ o.code = -1 := by
  cases h with
  | busy => exact .inr (.inl rfl)
  | internalError => exact .inr (.inr rfl)
  | succeeded => exact .inl rfl

theorem Possible.code_query (h : Possible .query o) : -1 ≤ o.code := by
  cases h with
  | busy => decide
  | internalError => decide
  | answer hn => exact Int32.le_trans (by decide) hn

/-- **Decoding agrees with unbounded arithmetic**: the outcome of a successful reply is a failure
unless its message, without the blanks around it, is a word for an integer, and then it depends on
that integer alone. So where nothing is asked there are three codes, and no query has a code below
that of a failure. -/
theorem decode_integer (kind : ResultKind) :
    (∀ reply : Reply, ∃ t, Text.Trims reply.message.toList t ∧
      ((¬∃ v, Text.SaysInt t v) → decode kind (.ok reply) = internalError) ∧
      ∀ v, Text.SaysInt t v → decode kind (.ok reply) = ofInteger kind v) ∧
    (∀ e, (decode kind (.error e) = busy ↔ ∃ text, e = .daemon 405 text) ∧
      (decode kind (.error e) = busy ∨ decode kind (.error e) = internalError)) ∧
    ∀ result,
      ((decode .status result).code = 0 ∨ (decode .status result).code = 405 ∨
        (decode .status result).code = -1) ∧
      -1 ≤ (decode .query result).code := by
  refine ⟨fun reply => ?_, fun e => ⟨decode_error_eq_busy_iff, decode_error kind e⟩,
    fun result => ?_⟩
  · exact ⟨Text.trim reply.message.toList, Text.trims_trim _, decode_of_not_saysInt,
      fun v => decode_of_saysInt⟩
  · exact ⟨(possible_decode .status result).code_status, (possible_decode .query result).code_query⟩

/-- The greatest number that 32 bits hold is an answer, with blanks, a sign and zeros around it. The
next one is a failure. -/
theorem decode_integer_greatest :
    decode .query (.ok ⟨200, some 1, "\u2003+0002147483647\u00a0", []⟩) = value 2147483647 ∧
      decode .query (.ok ⟨200, some 1, "2147483648", []⟩) = internalError := by
  constructor
  · obtain ⟨t, ht, -, hsays⟩ :=
      (decode_integer .query).1 ⟨200, some 1, "\u2003+0002147483647\u00a0", []⟩
    obtain rfl := Text.trims_iff.mp ht
    exact hsays 2147483647 (Text.saysInt_iff.mpr (by decide +kernel))
  · obtain ⟨t, ht, -, hsays⟩ := (decode_integer .query).1 ⟨200, some 1, "2147483648", []⟩
    obtain rfl := Text.trims_iff.mp ht
    exact hsays 2147483648 (Text.saysInt_iff.mpr (by decide +kernel))

/-! ### What a code tells -/

/-- Which outcomes count as failures. -/
theorem Possible.operationFailed_iff (h : Possible kind o) :
    operationFailed kind o.code = true ↔
      o = .busy ∨ o = .internalError ∨ kind = .query ∧ o = .value busyCode := by
  cases h with
  | busy => cases kind <;> simp [operationFailed, code, succeededCode, busyCode]
  | internalError => cases kind <;> simp [operationFailed, code, succeededCode, internalErrorCode]
  | succeeded => simp [operationFailed, code]
  | answer hn => simp [operationFailed, code, Int32.not_lt.mpr hn]

/-- Decoded once more, a code gives its outcome back, save that of a busy query. -/
theorem Possible.ofValue_code (h : Possible kind o) :
    ofValue kind o.code = if kind = .query ∧ o = .busy then .value busyCode else o := by
  cases h with
  | busy => cases kind <;> rfl
  | internalError => cases kind <;> rfl
  | succeeded => rfl
  | answer hn => simp [ofValue, code, hn]

/-- Two outcomes with one code. -/
theorem Possible.code_eq_iff (h : Possible kind o) (h' : Possible kind o') :
    o.code = o'.code ↔ o = o' ∨
      kind = .query ∧ (o = .busy ∧ o' = .value busyCode ∨ o = .value busyCode ∧ o' = .busy) := by
  constructor
  · intro hcode
    have hsame := congrArg (ofValue kind) hcode
    rw [h.ofValue_code, h'.ofValue_code] at hsame
    by_cases hb : kind = .query ∧ o = .busy
    · by_cases hb' : kind = .query ∧ o' = .busy
      · exact .inl (hb.2.trans hb'.2.symm)
      · rw [if_pos hb, if_neg hb'] at hsame
        exact .inr ⟨hb.1, .inl ⟨hb.2, hsame.symm⟩⟩
    · by_cases hb' : kind = .query ∧ o' = .busy
      · rw [if_neg hb, if_pos hb'] at hsame
        exact .inr ⟨hb'.1, .inr ⟨hsame, hb'.2⟩⟩
      · rw [if_neg hb, if_neg hb'] at hsame
        exact .inl hsame
  · rintro (rfl | ⟨-, ⟨rfl, rfl⟩ | ⟨rfl, rfl⟩⟩) <;> rfl

/-- **A code counts as a failure for a busy storage and for a failure, and for one answer**: `405`
to a query. That answer and the busy storage are also the only two outcomes of one kind that have a
code in common. -/
theorem operationFailed_decode_iff (kind : ResultKind) (result other : ExchangeResult) :
    (operationFailed kind (decode kind result).code = true ↔
      decode kind result = busy ∨ decode kind result = internalError ∨
        kind = .query ∧ decode kind result = value busyCode) ∧
    ((decode kind result).code = (decode kind other).code ↔
      decode kind result = decode kind other ∨
        kind = .query ∧ (decode kind result = busy ∧ decode kind other = value busyCode ∨
          decode kind result = value busyCode ∧ decode kind other = busy)) :=
  ⟨(possible_decode kind result).operationFailed_iff,
    (possible_decode kind result).code_eq_iff (possible_decode kind other)⟩

/-- A query whose answer is `405` counts as failed, and its code is that of a busy storage. -/
theorem answer_taken_for_busy :
    ¬(operationFailed .query (decode .query (.ok ⟨200, some 1, "405", []⟩)).code = true ↔
      decode .query (.ok ⟨200, some 1, "405", []⟩) = busy ∨
        decode .query (.ok ⟨200, some 1, "405", []⟩) = internalError) := by
  decide +kernel

end Outcome
end EfsControl
