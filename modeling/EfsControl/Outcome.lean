/-
# Outcomes and result codes

Every operation ends in one of four outcomes, and each outcome has a result
code: `0` for success, the number itself for the answer to a query, `405` for
a busy storage and `-1` for every other failure.

Key definitions: `Outcome`, `Outcome.code`, `operationFailed`,
`StorageState`.
-/
import EfsControl.Operation

namespace EfsControl

/-- How an operation ended. -/
inductive Outcome
  | succeeded
  /-- The answer to a query. -/
  | value (n : Int32)
  | busy
  | internalError
  deriving DecidableEq

namespace Outcome

/-- The result code of a successful operation. -/
def succeededCode : Int32 := 0

/-- The result code for a busy storage. -/
def busyCode : Int32 := 405

/-- The result code for every other failure. -/
def internalErrorCode : Int32 := -1

/-- The result code that callers get. -/
def code : Outcome → Int32
  | succeeded => succeededCode
  | value n => n
  | busy => busyCode
  | internalError => internalErrorCode

/-- The shown form of an outcome. -/
def describe : Outcome → String
  | succeeded => "Succeeded"
  | value n => "Value(" ++ String.ofList (Text.intDigits n.toInt) ++ ")"
  | busy => "Busy"
  | internalError => "InternalError"

end Outcome

/-- Whether a result code means failure: every number but `0` where there is nothing to answer, and
for a query the negative ones and the code of a busy storage. -/
def operationFailed : ResultKind → Int32 → Bool
  | .status, code => code != Outcome.succeededCode
  | .query, code => code < 0 || code == Outcome.busyCode

/-- How far the encryption of a storage is. -/
inductive StorageState
  | notStarted
  | inProgress
  | completed
  deriving DecidableEq, Repr

namespace StorageState

/-- The state that the answer to a status query stands for. -/
def ofCode? (code : Int32) : Option StorageState :=
  if code = 1 then some notStarted
  else if code = 2 then some inProgress
  else if code = 3 then some completed
  else none

/-- The name of a state. -/
def name : StorageState → String
  | notStarted => "NotStarted"
  | inProgress => "InProgress"
  | completed => "Completed"

end StorageState
end EfsControl
