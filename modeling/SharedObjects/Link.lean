import SharedObjects.Hub.Carrier
import SharedObjects.Kind
/-!
A link that misbehaves on request. It queues messages by endpoint, may let an event jump ahead of
events queued last, may queue a message twice, and refuses everything for chosen endpoints. An event
never passes a message of another kind, so a replica is there before its events are.
-/
set_option autoImplicit false

namespace SharedObjects

/-- How a link misbehaves: how many queued events a new one passes, and whether everything is
queued twice. -/
structure LinkFaults where
  jump : Nat
  duplicates : Bool
  deriving DecidableEq, Repr

def LinkFaults.perfect : LinkFaults := ⟨0, false⟩

structure LinkTally where
  accepted : Nat
  refused : Nat
  reordered : Nat
  duplicated : Nat
  deriving DecidableEq, Repr

structure Link where
  faults : LinkFaults
  queues : Entries EndpointId (List Octets)
  refusing : List EndpointId
  tally : LinkTally
  deriving Repr

namespace Link

def new (faults : LinkFaults) : Link := ⟨faults, [], [], ⟨0, 0, 0, 0⟩⟩

def isEvent (message : Octets) : Bool := message.head? = some MessageKind.event.code

def queue (l : Link) (e : EndpointId) : List Octets := (l.queues.get? e).getD []

def queued (l : Link) (e : EndpointId) : Nat := (l.queue e).length

def setRefusing (l : Link) (e : EndpointId) (refusing : Bool) : Link :=
  let others := l.refusing.filter (fun r => r ≠ e)
  { l with refusing := if refusing then e :: others else others }

/-- How many messages at the end of a queue, which is given from its end, a new event passes. -/
def passed : Nat → List Octets → Nat
  | 0, _ => 0
  | _ + 1, [] => 0
  | jump + 1, message :: before => if isEvent message then passed jump before + 1 else 0

def insertAhead (count : Nat) (message : Octets) (queue : List Octets) : List Octets :=
  let place := queue.length - count
  queue.take place ++ message :: queue.drop place

def send (e : EndpointId) (message : Octets) (l : Link) : Except DeliveryFault Unit × Link :=
  if l.refusing.contains e then
    (.error .disconnected, { l with tally := { l.tally with refused := l.tally.refused + 1 } })
  else
    let queue := l.queue e
    let count := passed (if isEvent message then l.faults.jump else 0) queue.reverse
    let queue := insertAhead count message queue
    let queue := if l.faults.duplicates then queue ++ [message] else queue
    (.ok (), { l with
      queues := l.queues.put e queue
      tally := { l.tally with
        accepted := l.tally.accepted + 1
        reordered := l.tally.reordered + if count = 0 then 0 else 1
        duplicated := l.tally.duplicated + if l.faults.duplicates then 1 else 0 } })

/-- Takes everything queued for an endpoint, in the order of delivery. -/
def drain (l : Link) (e : EndpointId) : List Octets × Link :=
  (l.queue e, { l with queues := l.queues.erase e })

end Link

instance : Carrier Link := ⟨Link.send⟩

end SharedObjects
