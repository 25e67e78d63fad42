/-
# Passwords

A password is kept apart from other texts so that nothing shows it by
accident: the only text it has outside a command is the same for all of them.

Key definitions: `Password`, `Password.expose`, `Password.redacted`.
-/
namespace EfsControl

/-- A storage or user-data password. Only the command encoder and the request bodies expose it. -/
structure Password where
  expose : String
  deriving DecidableEq, Inhabited

namespace Password

/-- What stands for any password in a log line or a shown value. -/
def redacted : String := "[REDACTED]"

/-- The shown form, which does not depend on the password. -/
def describe (_ : Password) : String := "Password(" ++ redacted ++ ")"

/-- The number of bytes of the password. -/
def size (p : Password) : Nat := p.expose.utf8ByteSize

/-- Whether the password is the empty text. -/
def isEmpty (p : Password) : Bool := p.size == 0

theorem describe_eq (p q : Password) : p.describe = q.describe := rfl

end Password
end EfsControl
