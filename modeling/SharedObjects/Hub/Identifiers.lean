import SharedObjects.Hub.Config
import SharedObjects.Identifier
/-!
Handing out identifiers. Fresh ones are counted up and the count never wraps: the greatest number is
never given away. Released ones queue up, and the first in the queue is used again, before any fresh
one, as soon as it has waited out the grace period.
-/
set_option autoImplicit false

namespace SharedObjects

/-- A reading of a clock. Nothing is assumed about one reading and the next. -/
structure Instant where
  nanos : Nat
  deriving DecidableEq, Repr

/-- The nanoseconds since an earlier instant, and none since one that is yet to come. -/
def Instant.since (now earlier : Instant) : Nat := now.nanos - earlier.nanos

/-- The next fresh identifier, and the released ones with the time of their release, oldest
first. -/
structure Identifiers where
  next : UInt32
  retired : List (ObjectId × Instant)
  grace : Nat
  deriving DecidableEq, Repr

namespace Identifiers

/-- The greatest number, which is never given away. -/
def last : UInt32 := 4294967295

def ofConfig (c : HubConfig) : Identifiers := ⟨max c.firstObjectId 1, [], c.grace⟩

def fresh (ids : Identifiers) : Option (ObjectId × Identifiers) :=
  if ids.next = last then none else some (⟨ids.next⟩, { ids with next := ids.next + 1 })

def allocate (now : Instant) (ids : Identifiers) : Option (ObjectId × Identifiers) :=
  match ids.retired with
  | [] => ids.fresh
  | (id, released) :: rest =>
    if ids.grace ≤ now.since released then some (id, { ids with retired := rest }) else ids.fresh

def retire (now : Instant) (id : ObjectId) (ids : Identifiers) : Identifiers :=
  { ids with retired := ids.retired ++ [(id, now)] }

end Identifiers

end SharedObjects
