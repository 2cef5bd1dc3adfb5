import SharedObjects.Follower
import SharedObjects.Hub
import SharedObjects.Link
/-!
A hub and any number of clients, each a follower, on one link. Messages move only when the cluster
is pumped, so every interleaving can be had again.
-/
set_option autoImplicit false

namespace SharedObjects

/-- What one pump moved, what it did to the followers, and what went wrong there. -/
structure Pumped where
  delivered : Nat
  updates : List (EndpointId × Update)
  errors : List (EndpointId × Fault)

namespace Pumped

def nothing : Pumped := ⟨0, [], []⟩

def isClean (p : Pumped) : Bool := p.errors.isEmpty

/-- Adds what one message did to a client; events its replica refused are errors. -/
def record (p : Pumped) (e : EndpointId) (result : Except Fault Update) : Pumped :=
  let p := { p with delivered := p.delivered + 1 }
  match result with
  | .error fault => { p with errors := p.errors ++ [(e, fault)] }
  | .ok update =>
    let refused := match update with
      | .applied _ _ rejected => rejected.map (fun r => (e, r.2))
      | _ => []
    { p with updates := p.updates ++ [(e, update)], errors := p.errors ++ refused }

end Pumped

structure Cluster where
  hub : Hub Link
  clients : Entries EndpointId Follower
  nextEndpoint : UInt64

namespace Cluster

def new (catalog : Catalog) (config : HubConfig) (faults : LinkFaults) : Cluster :=
  ⟨.new catalog (.new faults) config, [], 1⟩

def perfect (catalog : Catalog) : Cluster := new catalog .testing .perfect

def endpoints (c : Cluster) : List EndpointId := c.clients.keys

def addClient (c : Cluster) : EndpointId × Cluster :=
  let e : EndpointId := ⟨c.nextEndpoint⟩
  (e, { c with
    clients := c.clients.put e (.new c.hub.catalog .default)
    nextEndpoint := c.nextEndpoint + 1 })

def act {α : Type} (action : HubAction Link α) (c : Cluster) : Except Fault α × Cluster :=
  let (result, hub) := action.outcome c.hub
  (result, { c with hub := hub })

def disconnect (e : EndpointId) (c : Cluster) : Except Fault Nat × Cluster :=
  let hub := { c.hub with carrier := (c.hub.carrier.drain e).2 }
  act (Hub.endpointDisconnected e) { c with hub := hub, clients := c.clients.erase e }

def host (now : Instant) (type : String) (fields : List (UInt16 × Value)) (c : Cluster) :
    Except Fault ObjectId × Cluster :=
  c.act do
    Hub.host now (← Attempt.demand (SharedObject.make (← get).catalog type fields))

def subscribe (e : EndpointId) (id : ObjectId) (c : Cluster) : Except Fault Unit × Cluster :=
  c.act (Hub.subscribe id e)

def post (e : Event) (c : Cluster) : Except Fault Report × Cluster := c.act (Hub.post e.object e)

def forward (e : Event) (c : Cluster) : Except Fault Report × Cluster :=
  c.act do
    Hub.handleForward (← Attempt.demand (e.forwarded (← get).catalog))

def setRefusing (e : EndpointId) (refusing : Bool) (c : Cluster) : Cluster :=
  { c with hub := { c.hub with carrier := c.hub.carrier.setRefusing e refusing } }

def deliver (e : EndpointId) : List Octets → Follower → Pumped → Follower × Pumped
  | [], f, p => (f, p)
  | message :: rest, f, p =>
    let (result, f) := (Follower.handleBytes message).outcome f
    deliver e rest f (p.record e result)

def handleBytes (e : EndpointId) (bytes : Octets) (c : Cluster) :
    Except Fault (Option Update) × Cluster :=
  match c.clients.get? e with
  | none => (.ok none, c)
  | some f =>
    let (result, f) := (Follower.handleBytes bytes).outcome f
    (result.map some, { c with clients := c.clients.put e f })

def pumpClients :
    Entries EndpointId Follower → Link → Pumped → Entries EndpointId Follower × Link × Pumped
  | [], link, p => ([], link, p)
  | (e, f) :: rest, link, p =>
    let (messages, link) := link.drain e
    let (f, p) := deliver e messages f p
    let (rest, link, p) := pumpClients rest link p
    ((e, f) :: rest, link, p)

def pump (c : Cluster) : Pumped × Cluster :=
  let (clients, link, pumped) := pumpClients c.clients c.hub.carrier .nothing
  (pumped, { c with hub := { c.hub with carrier := link }, clients := clients })

def replica? (c : Cluster) (e : EndpointId) (id : ObjectId) : Option SharedObject :=
  (c.clients.get? e).bind (fun f => f.object? id)

/-- Is the object hosted, and does every subscriber's replica hold the same values? -/
def converged (c : Cluster) (id : ObjectId) : Bool :=
  match c.hub.object? id with
  | none => false
  | some o =>
    (c.hub.subscribersOf id).all fun e =>
      match c.replica? e id with
      | some replica => replica.same o
      | none => false

end Cluster

end SharedObjects
