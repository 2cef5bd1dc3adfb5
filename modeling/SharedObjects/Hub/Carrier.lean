import SharedObjects.Entries
import SharedObjects.Fault
set_option autoImplicit false

namespace SharedObjects

/-- Offers one whole message to an endpoint. -/
class Carrier (τ : Type) where
  send : EndpointId → Octets → τ → Except DeliveryFault Unit × τ

/-- A carrier that keeps what it accepts, and fails for chosen endpoints. -/
structure Tape where
  failing : Entries EndpointId DeliveryFault
  sent : List (EndpointId × Octets)
  deriving Repr

namespace Tape

def blank : Tape := ⟨[], []⟩

def setFailing (t : Tape) (e : EndpointId) (fault : Option DeliveryFault) : Tape :=
  { t with failing := match fault with
    | some fault => t.failing.put e fault
    | none => t.failing.erase e }

def send (e : EndpointId) (message : Octets) (t : Tape) : Except DeliveryFault Unit × Tape :=
  match t.failing.get? e with
  | some fault => (.error fault, t)
  | none => (.ok (), { t with sent := t.sent ++ [(e, message)] })

end Tape

instance : Carrier Tape := ⟨Tape.send⟩

end SharedObjects
