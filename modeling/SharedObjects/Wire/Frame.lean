import SharedObjects.Wire.Message
/-!
Messages on a stream of bytes. Each travels behind its length in four bytes; what has arrived is
buffered until a whole message is there, so it does not matter how the stream is cut. A length
beyond the limit means that the place in the stream is lost: it is reported once, and the buffer is
emptied.
-/
set_option autoImplicit false

namespace SharedObjects

/-- What has arrived on a stream, and the longest message it may carry. -/
structure Framer where
  buffer : Octets
  limit : Nat
  deriving DecidableEq, Repr

namespace Framer

def lengthSize : Nat := 4

def empty : Framer := ⟨[], defaultFrameLimit⟩

def withLimit (limit : Nat) : Framer := ⟨[], limit⟩

def frame (f : Framer) (message : Octets) : Except Fault Octets :=
  if message.length > f.limit then .error (.encoding (.frameTooLong message.length f.limit))
  else .ok (Octets.ofNat lengthSize message.length ++ message)

def frameSize (f : Framer) (size : Nat) : Except Fault Nat :=
  if size > f.limit then .error (.encoding (.frameTooLong size f.limit))
  else .ok (lengthSize + size)

def push (f : Framer) (bytes : Octets) : Framer := { f with buffer := f.buffer ++ bytes }

def buffered (f : Framer) : Nat := f.buffer.length

def next (f : Framer) : Except Fault (Option Octets) × Framer :=
  if !Octets.atLeast lengthSize f.buffer then (.ok none, f)
  else
    let size := Octets.toNat (f.buffer.take lengthSize)
    let arrived := f.buffer.drop lengthSize
    if size > f.limit then
      (.error (.format (.frameTooLong size f.limit)), { f with buffer := [] })
    else if !Octets.atLeast size arrived then (.ok none, f)
    else (.ok (some (arrived.take size)), { f with buffer := arrived.drop size })

/-- The next message, read; one that cannot be read is used up all the same. -/
def nextMessage (f : Framer) : Except Fault (Option Message) × Framer :=
  match f.next with
  | (.ok (some bytes), f) => ((Message.decode bytes).map some, f)
  | (.ok none, f) => (.ok none, f)
  | (.error fault, f) => (.error fault, f)

end Framer

end SharedObjects
