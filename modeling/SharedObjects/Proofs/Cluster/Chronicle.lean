import Mathlib.Logic.Function.Basic
import SharedObjects.Cluster
import SharedObjects.Proofs.Wire.Traffic
/-!
Runs of a cluster, and what an onlooker writes down on the way. Of each hosted object it keeps the
values that every event left behind; of each endpoint, which object its replicas were made from and
what has been sent to it since. None of this is seen by the cluster.
-/
set_option autoImplicit false

namespace SharedObjects

/-- Something that happens to a cluster. Who hosts or unregisters an object reads the clock. -/
inductive ClusterStep
  | host (now : Instant) (type : String) (fields : List (UInt16 × Value))
  | addClient
  | disconnect (e : EndpointId)
  | subscribe (e : EndpointId) (id : ObjectId)
  | unsubscribe (e : EndpointId) (id : ObjectId)
  | post (event : Event)
  | forward (event : Event)
  | unregister (now : Instant) (id : ObjectId)
  | setRefusing (e : EndpointId) (refusing : Bool)
  | pump

def ClusterStep.WellKeyed : ClusterStep → Prop
  | host _ _ fields => ∀ f ∈ fields, f.2.WellKeyed
  | post event | forward event => event.WellKeyed
  | _ => True

def ClusterStep.addsClient : ClusterStep → Bool
  | addClient => true
  | _ => false

/-- A hosted object as it went live, and the events published for it, each with the values right
after it. -/
structure Story where
  object : SharedObject
  events : List (Event × List Value)

namespace Story

def valuesAfter (s : Story) : Nat → Option (List Value)
  | 0 => some s.object.values
  | n + 1 => s.events[n]?.map Prod.snd

def add (s : Story) (event : Event) (values : List Value) : Story :=
  { s with events := s.events ++ [(event, values)] }

end Story

/-- What was sent of an object since its last snapshot: whether an event was refused, how many were
queued without a pump in between, and the most that ever were. -/
structure Account where
  refused : Bool
  window : Nat
  widest : Nat

namespace Account

def fresh : Account := ⟨false, 0, 0⟩

def queued (a : Account) : Account :=
  { a with window := a.window + 1, widest := max a.widest (a.window + 1) }

def emptied (a : Account) : Account := { a with window := 0 }

end Account

/-- The objects whose snapshots are on their way to an endpoint, in order; those that its replicas
were made from; and what it was sent of each since. -/
structure View where
  underway : List Handle
  source : ObjectId → Option Handle
  accounts : ObjectId → Account

namespace View

def new : View := ⟨[], fun _ => none, fun _ => .fresh⟩

def snapshot (v : View) (id : ObjectId) (h : Handle) (duplicates : Bool) : View :=
  { v with
    underway := v.underway ++ if duplicates then [h, h] else [h]
    accounts := Function.update v.accounts id .fresh }

def event (v : View) (id : ObjectId) (refused : Bool) : View :=
  let account := v.accounts id
  let account := if refused then { account with refused := true } else account.queued
  { v with accounts := Function.update v.accounts id account }

/-- Each snapshot that arrives is the first one underway. -/
def observe (v : View) : Update → View
  | .materialized id =>
    match v.underway with
    | [] => v
    | h :: rest => { v with underway := rest, source := Function.update v.source id (some h) }
  | _ => v

def pumped (v : View) (updates : List Update) : View :=
  let v := updates.foldl observe v
  { v with accounts := fun id => (v.accounts id).emptied }

end View

/-- A cluster, the stories of the objects that its hub shares, by handle, what is known of each
endpoint, and all that pumps have done to clients. -/
structure Chronicle where
  cluster : Cluster
  stories : List Story
  views : EndpointId → View
  updates : List (EndpointId × Update)

namespace Chronicle

def start (c : Catalog) (config : HubConfig) (faults : LinkFaults) : Chronicle :=
  ⟨.new c config faults, [], fun _ => .new, []⟩

def published (t : Chronicle) (event : Event) : Except Fault Report × Cluster → Chronicle
  | (.error _, cluster) => { t with cluster := cluster }
  | (.ok _, cluster) =>
    match cluster.hub.hosted.get? event.object, cluster.hub.object? event.object with
    | some hosted, some o =>
      { t with
        cluster := cluster
        stories := t.stories.modify hosted.handle.place (·.add event o.values)
        views := fun e =>
          if hosted.subscribers.contains e then
            (t.views e).event event.object (t.cluster.hub.carrier.refusing.contains e)
          else t.views e }
    | _, _ => { t with cluster := cluster }

def step (t : Chronicle) : ClusterStep → Chronicle
  | .host now type fields =>
    match t.cluster.host now type fields with
    | (.error _, cluster) => { t with cluster := cluster }
    | (.ok id, cluster) =>
      { t with
        cluster := cluster
        stories := t.stories ++ (cluster.hub.object? id).toList.map (⟨·, []⟩) }
  | .addClient => { t with cluster := t.cluster.addClient.2 }
  | .disconnect e =>
    { t with
      cluster := (t.cluster.disconnect e).2
      views := Function.update t.views e .new }
  | .subscribe e id =>
    match t.cluster.subscribe e id with
    | (.error _, cluster) => { t with cluster := cluster }
    | (.ok _, cluster) =>
      match cluster.hub.hosted.get? id with
      | none => { t with cluster := cluster }
      | some hosted =>
        let view := (t.views e).snapshot id hosted.handle cluster.hub.carrier.faults.duplicates
        { t with cluster := cluster, views := Function.update t.views e view }
  | .unsubscribe e id => { t with cluster := (t.cluster.act (Hub.unsubscribe id e)).2 }
  | .post event => t.published event (t.cluster.post event)
  | .forward event => t.published event (t.cluster.forward event)
  | .unregister now id => { t with cluster := (t.cluster.act (Hub.unregister now id)).2 }
  | .setRefusing e refusing => { t with cluster := t.cluster.setRefusing e refusing }
  | .pump =>
    let (pumped, cluster) := t.cluster.pump
    { t with
      cluster := cluster
      views := fun e =>
        if t.cluster.clients.contains e then
          (t.views e).pumped ((pumped.updates.filter (·.1 = e)).map Prod.snd)
        else t.views e
      updates := t.updates ++ pumped.updates }

def run (t : Chronicle) (steps : List ClusterStep) : Chronicle := steps.foldl step t

/-- No counter of 64 bits overflows on the way, neither one of events nor that of clients. -/
structure Counted (t : Chronicle) (steps : List ClusterStep) : Prop where
  events : ∀ s ∈ t.stories, s.events.length < UInt64.size
  clients : steps.countP ClusterStep.addsClient < UInt64.size

end Chronicle

end SharedObjects
