import SharedObjects.Sequencer
import SharedObjects.SharedObject.Snapshot
import SharedObjects.Wire.Frame
/-!
A follower keeps replicas of the objects its connection subscribes to. A snapshot makes a replica or
replaces it, events are applied in the order they were published, and a removal drops the replica.
An event that a replica refuses is reported and skipped; those after it still apply.
-/
set_option autoImplicit false

namespace SharedObjects

inductive Update
  | materialized (id : ObjectId)
  | applied (id : ObjectId) (count : Nat) (rejected : List (Seq × Fault))
  | buffered (id : ObjectId)
  | duplicate (id : ObjectId)
  | removed (id : ObjectId)
  | subscribeFailed (id : ObjectId) (reason : String)
  deriving DecidableEq, Repr

/-- A copy of a hosted object and the events waiting for it. -/
structure Replica where
  object : SharedObject
  sequencer : Sequencer (Seq × Event)
  deriving Repr

/-- Replicas by identifier, what has arrived on the stream, and what listeners have been told. -/
structure Follower where
  catalog : Catalog
  config : SequencerConfig
  replicas : Entries ObjectId Replica
  framer : Framer
  heard : List Notice

abbrev FollowerAction (α : Type) := Attempt Follower α

/-- An object after events, how many applied, which were refused, and what listeners were told. -/
structure Replay where
  object : SharedObject
  count : Nat
  rejected : List (Seq × Fault)
  notices : List Notice

/-- Applies events in order, skipping those the object refuses. -/
def SharedObject.replay (o : SharedObject) : List (Seq × Event) → Replay
  | [] => ⟨o, 0, [], []⟩
  | (seq, e) :: rest =>
    match o.apply e with
    | .ok o =>
      let after := o.replay rest
      { after with count := after.count + 1, notices := o.notices e ++ after.notices }
    | .error fault =>
      let after := o.replay rest
      { after with rejected := (seq, fault) :: after.rejected }

namespace Follower

open Attempt (demand)

def new (catalog : Catalog) (config : SequencerConfig) : Follower :=
  ⟨catalog, config, [], .empty, []⟩

def object? (f : Follower) (id : ObjectId) : Option SharedObject :=
  (f.replicas.get? id).map Replica.object

def contains (f : Follower) (id : ObjectId) : Bool := f.replicas.contains id

def size (f : Follower) : Nat := f.replicas.length

def ids (f : Follower) : List ObjectId := f.replicas.keys.mergeSort (fun a b => a.number ≤ b.number)

def lastApplied? (f : Follower) (id : ObjectId) : Option Seq :=
  (f.replicas.get? id).map (fun r => r.sequencer.last)

def replicaOf (id : ObjectId) : FollowerAction Replica := do
  match (← get).replicas.get? id with
  | some r => return r
  | none => throw (.unknownObject id)

def putReplica (id : ObjectId) (r : Replica) : FollowerAction Unit :=
  modify (fun f => { f with replicas := f.replicas.put id r })

def listen (id : ObjectId) (listener : String) : FollowerAction Unit := do
  let r ← replicaOf id
  putReplica id { r with object := r.object.listen listener }

def materialize (id : ObjectId) (seq : Seq) (body : Octets) : FollowerAction Update := do
  let f ← get
  let o ← demand (SharedObject.ofSnapshot f.catalog id body)
  putReplica id ⟨o, .startAfter id seq f.config⟩
  return .materialized id

def takeEvent (seq : Seq) (body : Octets) : FollowerAction Update := do
  let e ← demand (Event.decode (← get).catalog body)
  let r ← replicaOf e.object
  let (arrival, sequencer) ← demand (r.sequencer.accept seq (seq, e))
  match arrival with
  | .duplicate => return .duplicate e.object
  | .buffered =>
    putReplica e.object { r with sequencer := sequencer }
    return .buffered e.object
  | .ready events =>
    let replay := r.object.replay events
    putReplica e.object ⟨replay.object, sequencer⟩
    modify (fun f => { f with heard := f.heard ++ replay.notices })
    return .applied e.object replay.count replay.rejected

def drop (id : ObjectId) : FollowerAction Update := do
  let _ ← replicaOf id
  modify (fun f => { f with replicas := f.replicas.erase id })
  return .removed id

def handle : Message → FollowerAction Update
  | .snapshot id seq body => materialize id seq body
  | .event seq body => takeEvent seq body
  | .removed id => drop id
  | .subscribeFailed id reason => return .subscribeFailed id reason
  | .forwardEvent _ => throw (.format .strayForward)

def handleBytes (bytes : Octets) : FollowerAction Update := do
  handle (← demand (Message.decode bytes))

/-- Handles every whole message that has arrived, at most `fuel` of them; a length beyond the limit
ends the stream. -/
def handleArrived : Nat → Follower → List (Except Fault Update) × Follower
  | 0, f => ([], f)
  | fuel + 1, f =>
    match f.framer.next with
    | (.ok none, framer) => ([], { f with framer := framer })
    | (.error fault, framer) => ([.error fault], { f with framer := framer })
    | (.ok (some bytes), framer) =>
      let (result, f) := (handleBytes bytes).outcome { f with framer := framer }
      let (results, f) := handleArrived fuel f
      (result :: results, f)

/-- Takes bytes from the stream and handles the messages they complete. Each uses up the bytes of
its length at least, so there are no more messages than bytes. -/
def feed (bytes : Octets) (f : Follower) : List (Except Fault Update) × Follower :=
  let framer := f.framer.push bytes
  handleArrived (framer.buffered + 1) { f with framer := framer }

end Follower

end SharedObjects
