import SharedObjects.Entries
set_option autoImplicit false

namespace SharedObjects

/-- The grace period, in nanoseconds, keeps a released identifier out of circulation; the capacity
is that of an endpoint's queue. -/
structure HubConfig where
  grace : Nat
  capacity : Nat
  firstObjectId : UInt32
  deriving DecidableEq, Repr

namespace HubConfig

def default : HubConfig := ⟨30000000000, 1024, 1⟩

def highFanout : HubConfig := ⟨60000000000, 8192, 1⟩

def testing : HubConfig := ⟨0, 64, 1⟩

def presets : Entries String HubConfig :=
  [("default", default), ("high_fanout", highFanout), ("testing", testing)]

def withGrace (c : HubConfig) (grace : Nat) : HubConfig := { c with grace := grace }

def withCapacity (c : HubConfig) (capacity : Nat) : HubConfig :=
  { c with capacity := max capacity 1 }

/-- Zero names no object, so the first identifier is one at least. -/
def withFirstObjectId (c : HubConfig) (first : UInt32) : HubConfig :=
  { c with firstObjectId := max first 1 }

end HubConfig

end SharedObjects
