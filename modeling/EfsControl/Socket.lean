/-
# What is at the path of a socket

Someone who connects to a path finds a socket on which somebody listens, one
without a listener or another file, or nothing.

Key definitions: `Socket`, `Socket.failure?`.
-/
import EfsControl.ExchangeError

namespace EfsControl

/-- What is at the path of a socket. -/
inductive Socket
  | absent
  /-- Something that nobody listens on. -/
  | deaf
  | listening
  deriving DecidableEq

/-- Why connecting fails at once, if it does. -/
def Socket.failure? : Socket → Option String
  | .absent => some ExchangeError.noSuchFile
  | .deaf => some ExchangeError.connectionRefused
  | .listening => none

end EfsControl
