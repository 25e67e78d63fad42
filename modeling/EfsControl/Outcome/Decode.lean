/-
# From replies to outcomes

The message of a successful reply, without blanks around it, is a 32-bit
number. Where the operation asks nothing, `0` is success, `405` a busy storage
and any other number a failure; for a query a number from `0` on is the
answer. A refusal with status `405` is a busy storage as well, and every other
failed exchange is a failure.

Key definitions: `resultValue?`, `Outcome.decode`, `Outcome.log`.
-/
import EfsControl.Log

namespace EfsControl

/-- The result of an exchange: a reply that says the command is done, or why there is none. -/
abbrev ExchangeResult := Except ExchangeError Reply

/-- The number in a message. -/
def resultValue? (message : String) : Option Int32 := Text.readInt32? (Text.trim message.toList)

namespace Outcome

/-- What the number in a successful reply stands for. -/
def ofValue : ResultKind → Int32 → Outcome
  | .status, n =>
    if n = succeededCode then succeeded else if n = busyCode then busy else internalError
  | .query, n => if 0 ≤ n then value n else internalError

/-- The outcome of an exchange. -/
def decode (kind : ResultKind) : ExchangeResult → Outcome
  | .ok reply =>
    match resultValue? reply.message with
    | some n => ofValue kind n
    | none => internalError
  | .error e => if e.isBusy then busy else internalError

/-- What is logged while the outcome is worked out. -/
def log : ExchangeResult → List LogEntry
  | .ok reply => if (resultValue? reply.message).isSome then [] else [.unparseable reply]
  | .error e => if e.isBusy then [] else [.commandFailed e]

end Outcome
end EfsControl
