import SharedObjects.Octets
set_option autoImplicit false

namespace SharedObjects

/-- Names a shared object for as long as it is hosted. -/
structure ObjectId where
  number : UInt32
  deriving DecidableEq, Repr

namespace ObjectId

def none : ObjectId := ⟨0⟩

def isNone (id : ObjectId) : Bool := id = none

def toOctets (id : ObjectId) : Octets := Octets.ofNat 4 id.number.toNat

def ofOctets (bytes : Octets) : ObjectId := ⟨UInt32.ofNat (Octets.toNat bytes)⟩

@[simp] theorem ofOctets_toOctets (id : ObjectId) : ofOctets id.toOctets = id := by
  have fits : id.number.toNat < Octets.capacity 4 := id.number.toNat_lt
  rw [ofOctets, toOctets, Octets.toNat_ofNat_of_lt fits, UInt32.ofNat_toNat]

def text (id : ObjectId) : String := Nat.repr id.number.toNat

def describe (id : ObjectId) : String := "Object(" ++ id.text ++ ")"

end ObjectId

structure EndpointId where
  number : UInt64
  deriving DecidableEq, Repr

namespace EndpointId

def text (endpoint : EndpointId) : String := Octets.hex (Octets.ofNat 8 endpoint.number.toNat)

def describe (endpoint : EndpointId) : String := "Endpoint(" ++ endpoint.text ++ ")"

end EndpointId

/-- A position in an object's event stream; the first event stands at one. -/
structure Seq where
  number : UInt64
  deriving DecidableEq, Repr

namespace Seq

def zero : Seq := ⟨0⟩

def next (seq : Seq) : Seq := ⟨seq.number + 1⟩

def text (seq : Seq) : String := Nat.repr seq.number.toNat

def describe (seq : Seq) : String := "Seq(" ++ seq.text ++ ")"

instance : LT Seq := ⟨fun a b => a.number < b.number⟩

instance : LE Seq := ⟨fun a b => a.number ≤ b.number⟩

instance (a b : Seq) : Decidable (a < b) := inferInstanceAs (Decidable (a.number < b.number))

instance (a b : Seq) : Decidable (a ≤ b) := inferInstanceAs (Decidable (a.number ≤ b.number))

end Seq

end SharedObjects
