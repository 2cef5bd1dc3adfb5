import SharedObjects.Hub.Carrier
import SharedObjects.Hub.Identifiers
import SharedObjects.Hub.Subscribers
import SharedObjects.SharedObject.Snapshot
import SharedObjects.Wire.Message
/-!
The hub. It hosts live objects and sends every published event, numbered, to those who subscribe. A
subscriber is sent the whole object first, with the number of the last event that is in it, so that
what follows neither overlaps nor leaves a gap. Sending never waits; what a carrier refuses is
counted and reported. An operation that fails leaves every hosted object as it was.
-/
set_option autoImplicit false

namespace SharedObjects

structure Report where
  object : ObjectId
  seq : Seq
  delivered : Nat
  failures : List (EndpointId × DeliveryFault)
  deriving DecidableEq, Repr

namespace Report

def isComplete (r : Report) : Bool := r.failures.isEmpty

def attempted (r : Report) : Nat := r.delivered + r.failures.length

end Report

/-- What a hub has done so far. Counts of 64 bits wrap. -/
structure HubTally where
  registered : UInt64
  unregistered : UInt64
  subscriptions : UInt64
  published : UInt64
  delivered : UInt64
  failed : UInt64
  deriving DecidableEq, Repr

/-- Stands for an object that the application shares with its hub. -/
structure Handle where
  place : Nat
  deriving DecidableEq, Repr

/-- A hosted object, who hears of it, and the number of the last event published. -/
structure Hosted where
  handle : Handle
  subscribers : Subscribers
  last : Seq
  deriving DecidableEq, Repr

/-- Shared objects by handle, those of them that are hosted, and what listeners have been told. -/
structure Hub (τ : Type) where
  catalog : Catalog
  config : HubConfig
  carrier : τ
  identifiers : Identifiers
  objects : List SharedObject
  hosted : Entries ObjectId Hosted
  tally : HubTally
  heard : List Notice

abbrev HubAction (τ α : Type) := Attempt (Hub τ) α

namespace Hub

open Attempt (demand)

variable {τ : Type}

def new (catalog : Catalog) (carrier : τ) (config : HubConfig) : Hub τ :=
  ⟨catalog, config, carrier, .ofConfig config, [], [], ⟨0, 0, 0, 0, 0, 0⟩, []⟩

def objectAt? (hub : Hub τ) (h : Handle) : Option SharedObject := hub.objects[h.place]?

def object? (hub : Hub τ) (id : ObjectId) : Option SharedObject :=
  (hub.hosted.get? id).bind (fun hosted => hub.objectAt? hosted.handle)

def contains (hub : Hub τ) (id : ObjectId) : Bool := hub.hosted.contains id

def size (hub : Hub τ) : Nat := hub.hosted.length

def subscribersOf (hub : Hub τ) (id : ObjectId) : List EndpointId :=
  match hub.hosted.get? id with
  | some hosted => hosted.subscribers.endpoints
  | none => []

def lastSeq? (hub : Hub τ) (id : ObjectId) : Option Seq := (hub.hosted.get? id).map Hosted.last

def place (o : SharedObject) : HubAction τ Handle :=
  modifyGet (fun hub => (⟨hub.objects.length⟩, { hub with objects := hub.objects ++ [o] }))

def putObject (h : Handle) (o : SharedObject) : HubAction τ Unit :=
  modify (fun hub => { hub with objects := hub.objects.set h.place o })

def putHosted (id : ObjectId) (hosted : Hosted) : HubAction τ Unit :=
  modify (fun hub => { hub with hosted := hub.hosted.put id hosted })

def count (change : HubTally → HubTally) : HubAction τ Unit :=
  modify (fun hub => { hub with tally := change hub.tally })

def sharedAt (h : Handle) : HubAction τ SharedObject := do
  match (← get).objectAt? h with
  | some o => return o
  | none => throw (.unknownObject .none)

def hostedAt (id : ObjectId) : HubAction τ (Hosted × SharedObject) := do
  let hub ← get
  match hub.hosted.get? id, hub.object? id with
  | some hosted, some o => return (hosted, o)
  | _, _ => throw (.unknownObject id)

def applyAt (h : Handle) (e : Event) : HubAction τ Unit := do
  let o ← demand ((← sharedAt h).apply e)
  putObject h o
  modify (fun hub => { hub with heard := hub.heard ++ o.notices e })

def register (now : Instant) (h : Handle) : HubAction τ ObjectId := do
  let o ← sharedAt h
  if o.stage ≠ .unregistered then throw (.alreadyRegistered o.id)
  match (← get).identifiers.allocate now with
  | none => throw (.encoding .identifiersExhausted)
  | some (id, identifiers) =>
    putObject h (← demand (o.goLive id))
    modify (fun hub => { hub with identifiers := identifiers })
    putHosted id ⟨h, .none, .zero⟩
    count (fun t => { t with registered := t.registered + 1 })
    return id

/-- Shares an object and hosts it; one that cannot be hosted is not shared either. -/
def host (now : Instant) (o : SharedObject) : HubAction τ ObjectId := fun hub =>
  match (do register now (← place o) : HubAction τ ObjectId) hub with
  | .ok id hub => .ok id hub
  | .error fault _ => .error fault hub

def unsubscribe (id : ObjectId) (e : EndpointId) : HubAction τ Bool := do
  match (← get).hosted.get? id with
  | none => return false
  | some hosted =>
    let (removed, subscribers) := hosted.subscribers.remove e
    putHosted id { hosted with subscribers := subscribers }
    return removed

def endpointDisconnected (e : EndpointId) : HubAction τ Nat :=
  modifyGet (fun hub =>
    ((hub.hosted.filter (fun h => h.2.subscribers.contains e)).length,
      { hub with hosted := hub.hosted.map (fun (id, h) =>
          (id, { h with subscribers := (h.subscribers.remove e).2 })) }))

variable [Carrier τ]

def offer (e : EndpointId) (message : Octets) : HubAction τ (Except DeliveryFault Unit) :=
  modifyGet (fun hub =>
    let (answer, carrier) := Carrier.send e message hub.carrier
    (answer, { hub with carrier := carrier }))

def offerAll (message : Octets) :
    List EndpointId → HubAction τ (Nat × List (EndpointId × DeliveryFault))
  | [] => return (0, [])
  | e :: es => do
    let answer ← offer e message
    let (delivered, failures) ← offerAll message es
    match answer with
    | .ok _ => return (delivered + 1, failures)
    | .error fault => return (delivered, (e, fault) :: failures)

/-- Sends a snapshot to an endpoint and counts it among the subscribers. An endpoint that was not
one and does not take its snapshot does not become one. -/
def trySubscribe (id : ObjectId) (e : EndpointId) : HubAction τ Unit := do
  let (hosted, o) ← hostedAt id
  if !o.stage.allowsSubscribers then throw (.unknownObject id)
  let body ← demand (o.snapshot (← get).catalog)
  let message ← demand (Message.snapshot id hosted.last body).encode
  let (added, subscribers) := hosted.subscribers.add e
  match ← offer e message with
  | .error fault =>
    count (fun t => { t with failed := t.failed + 1 })
    throw (.delivery fault)
  | .ok _ =>
    putHosted id { hosted with subscribers := subscribers }
    count (fun t => { t with
      delivered := t.delivered + 1
      subscriptions := t.subscriptions + if added then 1 else 0 })

/-- Tells an endpoint that there is nothing to subscribe to; whether it hears does not matter. -/
def refuseSubscription (id : ObjectId) (e : EndpointId) (fault : Fault) : HubAction τ Unit := do
  match (Message.subscribeFailed id fault.text).encode with
  | .ok message =>
    let _ ← offer e message
  | .error _ => return

def subscribe (id : ObjectId) (e : EndpointId) : HubAction τ Unit := fun hub =>
  match trySubscribe id e hub with
  | .error (.unknownObject other) hub =>
    let fault := Fault.unknownObject other
    (do refuseSubscription id e fault; throw fault : HubAction τ Unit) hub
  | result => result

/-- Numbers an encoded event and sends it to every subscriber. -/
def fanOut (id : ObjectId) (body : Octets) : HubAction τ Report := do
  let (hosted, _) ← hostedAt id
  let seq := hosted.last.next
  let message ← demand (Message.event seq body).encode
  putHosted id { hosted with last := seq }
  let (delivered, failures) ← offerAll message hosted.subscribers.active
  count (fun t => { t with
    published := t.published + 1
    delivered := t.delivered + .ofNat delivered
    failed := t.failed + .ofNat failures.length })
  return ⟨id, seq, delivered, failures⟩

def publish (id : ObjectId) (e : Event) : HubAction τ Report := do
  let (_, o) ← hostedAt id
  if !o.stage.allowsPublishing then throw (.unknownObject id)
  if e.object ≠ id then throw (.unknownObject e.object)
  fanOut id (← demand (e.encode (← get).catalog))

/-- Applies an event and sends it to every subscriber. It is encoded first, so that one which cannot
travel is not applied either. -/
def post (id : ObjectId) (e : Event) : HubAction τ Report := do
  let (hosted, o) ← hostedAt id
  if !o.stage.allowsEvents then throw (.unknownObject id)
  let body ← demand (e.encode (← get).catalog)
  applyAt hosted.handle e
  fanOut id body

def handleForward (message : Octets) : HubAction τ Report := do
  match ← demand (Message.decode message) with
  | .forwardEvent body =>
    let e ← demand (Event.decode (← get).catalog body)
    post e.object e
  | other => throw (.format (.notForwarded other.kind))

def unregister (now : Instant) (id : ObjectId) : HubAction τ Report := do
  let (hosted, o) ← hostedAt id
  if o.stage ≠ .live then throw (.unknownObject id)
  let message ← demand (Message.removed id).encode
  let leaving ← demand o.beginUnregister
  let (delivered, failures) ← offerAll message hosted.subscribers.endpoints
  putObject hosted.handle (← demand leaving.markRemoved)
  modify (fun hub => { hub with
    hosted := hub.hosted.erase id
    identifiers := hub.identifiers.retire now id })
  count (fun t => { t with
    unregistered := t.unregistered + 1
    delivered := t.delivered + .ofNat delivered
    failed := t.failed + .ofNat failures.length })
  return ⟨id, hosted.last, delivered, failures⟩

end Hub

/-- Installs a process's catalog, which can be done once. -/
def Catalog.install (installed : Option Catalog) (c : Catalog) : Except Fault Catalog :=
  match installed with
  | none => .ok c
  | some _ => .error (.encoding .catalogInstalled)

def Hub.ofInstalled {τ : Type} (installed : Option Catalog) (carrier : τ) (config : HubConfig) :
    Except Fault (Hub τ) :=
  match installed with
  | some c => .ok (.new c carrier config)
  | none => .error (.encoding .catalogMissing)

end SharedObjects
