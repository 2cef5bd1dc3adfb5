set_option autoImplicit false

namespace SharedObjects

inductive Stage
  | unregistered
  | live
  | unregistering
  | removed
  deriving DecidableEq, Repr

namespace Stage

def all : List Stage := [unregistered, live, unregistering, removed]

def code : Stage → UInt8
  | unregistered => 0
  | live => 1
  | unregistering => 2
  | removed => 3

def initial : Stage := unregistered

def canBecome : Stage → Stage → Bool
  | unregistered, live => true
  | live, unregistering => true
  | unregistering, removed => true
  | _, _ => false

theorem canBecome_iff (a b : Stage) :
    a.canBecome b = true ↔ b.code.toNat = a.code.toNat + 1 := by
  cases a <;> cases b <;> decide

def allowsDirectWrites (s : Stage) : Bool := s = unregistered

def allowsEvents (s : Stage) : Bool := s = live

def allowsSubscribers (s : Stage) : Bool := s = live

def allowsPublishing (s : Stage) : Bool := s = live || s = unregistering

def name : Stage → String
  | unregistered => "Unregistered"
  | live => "Live"
  | unregistering => "Unregistering"
  | removed => "Removed"

end Stage

end SharedObjects
