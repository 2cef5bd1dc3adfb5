import SharedObjects.Hub.Carrier
import SharedObjects.Hub.Config
/-!
Bounded queues in one process. Connecting an endpoint opens a new queue for it; the one it had
before takes no more messages but keeps what it holds for its receiver. A message is refused when
the endpoint has no queue, when the queue's receiver is gone, or when the queue is full. The queues
themselves are not made here: any kind of queue will do.
-/
set_option autoImplicit false

namespace SharedObjects

inductive QueueFault
  | full
  | closed
  deriving DecidableEq, Repr

def QueueFault.delivery : QueueFault → DeliveryFault
  | .full => .backpressure
  | .closed => .disconnected

/-- A kind of queue. Each is opened for a number of messages and has one receiver, which takes
messages out and may go away. -/
class Queue (κ : Type) where
  opened : Nat → κ
  isClosed : κ → Bool
  offer : Octets → κ → Except QueueFault Unit × κ
  take : κ → Option Octets × κ
  close : κ → κ

/-- For how many messages a queue has room, what waits in it for the receiver, and whether the
receiver is still there. -/
structure Lane where
  capacity : Nat
  waiting : List Octets
  received : Bool
  deriving DecidableEq, Repr

namespace Lane

def opened (capacity : Nat) : Lane := ⟨capacity, [], true⟩

def isClosed (lane : Lane) : Bool := !lane.received

def offer (message : Octets) (lane : Lane) : Except QueueFault Unit × Lane :=
  if lane.isClosed then (.error .closed, lane)
  else if lane.waiting.length ≥ lane.capacity then (.error .full, lane)
  else (.ok (), { lane with waiting := lane.waiting ++ [message] })

def take (lane : Lane) : Option Octets × Lane :=
  (lane.waiting.head?, { lane with waiting := lane.waiting.tail })

def close (lane : Lane) : Lane := { lane with waiting := [], received := false }

end Lane

instance : Queue Lane := ⟨Lane.opened, Lane.isClosed, Lane.offer, Lane.take, Lane.close⟩

/-- All queues opened so far, and the one that each endpoint sends to. -/
structure Channels (κ : Type) where
  capacity : Nat
  lanes : List κ
  routes : Entries EndpointId Nat
  deriving Repr

inductive Reception
  | message (bytes : Octets)
  | empty
  | closed
  deriving DecidableEq, Repr

def Reception.of (fed : Bool) : Option Octets → Reception
  | some bytes => .message bytes
  | none => if fed then .empty else .closed

namespace Channels

variable {κ : Type}

def withCapacity (capacity : Nat) : Channels κ := ⟨max capacity 1, [], []⟩

def ofConfig (c : HubConfig) : Channels κ := withCapacity c.capacity

def disconnect (e : EndpointId) (c : Channels κ) : Bool × Channels κ :=
  (c.routes.contains e, { c with routes := c.routes.erase e })

def lane? (c : Channels κ) (e : EndpointId) : Option (Nat × κ) :=
  match c.routes.get? e with
  | none => none
  | some n => (c.lanes[n]?).map (fun lane => (n, lane))

def endpoints (c : Channels κ) : List EndpointId :=
  c.routes.keys.mergeSort (fun a b => a.number ≤ b.number)

def isFed (c : Channels κ) (n : Nat) : Bool := c.routes.any (fun r => r.2 = n)

variable [Queue κ]

def connect (e : EndpointId) (c : Channels κ) : Nat × Channels κ :=
  (c.lanes.length,
    { c with
      lanes := c.lanes ++ [Queue.opened c.capacity]
      routes := c.routes.put e c.lanes.length })

def isConnected (c : Channels κ) (e : EndpointId) : Bool :=
  match c.lane? e with
  | some (_, lane) => !Queue.isClosed lane
  | none => false

def send (e : EndpointId) (message : Octets) (c : Channels κ) :
    Except DeliveryFault Unit × Channels κ :=
  match c.lane? e with
  | none => (.error .unknownEndpoint, c)
  | some (n, lane) =>
    let (answer, lane) := Queue.offer message lane
    (answer.mapError QueueFault.delivery, { c with lanes := c.lanes.set n lane })

/-- Takes the next message of a queue; one that is drained and no longer fed is closed. -/
def receive (n : Nat) (c : Channels κ) : Reception × Channels κ :=
  match c.lanes[n]? with
  | none => (.closed, c)
  | some lane =>
    let (found, lane) := Queue.take lane
    (.of (c.isFed n) found, { c with lanes := c.lanes.set n lane })

def dropReceiver (n : Nat) (c : Channels κ) : Channels κ :=
  { c with lanes := c.lanes.modify n Queue.close }

instance : Carrier (Channels κ) := ⟨Channels.send⟩

end Channels

structure Switchboard where
  channels : Channels Lane
  receivers : Entries EndpointId Nat
  deriving Repr

namespace Switchboard

def ofChannels (c : Channels Lane) : Switchboard := ⟨c, []⟩

def dropReceiver (e : EndpointId) (s : Switchboard) : Bool × Switchboard :=
  match s.receivers.get? e with
  | none => (false, s)
  | some n => (true, ⟨Channels.dropReceiver n s.channels, s.receivers.erase e⟩)

/-- Connects an endpoint; the new receiver replaces the old one. -/
def connect (e : EndpointId) (s : Switchboard) : Switchboard :=
  let (n, channels) := Channels.connect e s.channels
  let s := (dropReceiver e { s with channels := channels }).2
  { s with receivers := s.receivers.put e n }

def disconnect (e : EndpointId) (s : Switchboard) : Bool × Switchboard :=
  let (had, channels) := Channels.disconnect e s.channels
  (had, { s with channels := channels })

def send (e : EndpointId) (message : Octets) (s : Switchboard) :
    Except DeliveryFault Unit × Switchboard :=
  let (answer, channels) := Channels.send e message s.channels
  (answer, { s with channels := channels })

def receive (e : EndpointId) (s : Switchboard) : Option Reception × Switchboard :=
  match s.receivers.get? e with
  | none => (none, s)
  | some n =>
    let (reception, channels) := Channels.receive n s.channels
    (some reception, { s with channels := channels })

end Switchboard

instance : Carrier Switchboard := ⟨Switchboard.send⟩

end SharedObjects
