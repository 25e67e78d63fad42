/-
# The body of a request on its way out

Whoever sends a body takes what it can and says how much it has taken. The
place up to which the body is taken never passes the end. The addition is one
of 64 bits and wraps around: a count that is too large moves the place back.

Key definitions: `BodyBuffer`, `BodyBuffer.advance`.
-/
namespace EfsControl

/-- A body and how many of its bytes are taken. -/
structure BodyBuffer where
  data : List UInt8
  taken : UInt64 := 0

namespace BodyBuffer

/-- The length of the body. -/
def size (b : BodyBuffer) : UInt64 := UInt64.ofNat b.data.length

/-- How many bytes are left. -/
def remaining (b : BodyBuffer) : UInt64 := b.size - b.taken

/-- The bytes that are left. -/
def chunk (b : BodyBuffer) : List UInt8 := b.data.drop b.taken.toNat

/-- The buffer after some more bytes have been taken. -/
def advance (b : BodyBuffer) (count : UInt64) : BodyBuffer :=
  { b with taken := min (b.taken + count) b.size }

end BodyBuffer
end EfsControl
