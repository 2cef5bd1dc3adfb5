import SharedObjects.Follower
import SharedObjects.Proofs.Sequencer
import SharedObjects.Proofs.Steps
set_option autoImplicit false

namespace SharedObjects

def Replica.taking (r : Replica) (s : Sequencer (Seq × Event)) :
    Arrival (Seq × Event) → Replica
  | .ready events => ⟨(r.object.replay events).object, s⟩
  | _ => { r with sequencer := s }

theorem SharedObject.replay_append (o : SharedObject) (events more : List (Seq × Event)) :
    o.replay (events ++ more) =
      let first := o.replay events
      let rest := first.object.replay more
      ⟨rest.object, first.count + rest.count, first.rejected ++ rest.rejected,
        first.notices ++ rest.notices⟩ := by
  induction events generalizing o with
  | nil => simp [replay]
  | cons item events ih =>
    obtain ⟨seq, e⟩ := item
    rw [List.cons_append, replay, replay]
    cases o.apply e with
    | ok after => simp only [ih, Nat.add_right_comm, List.append_assoc]
    | error fault => simp only [ih, List.cons_append]

namespace Follower

open Attempt

variable {f after : Follower} {id : ObjectId} {r : Replica} {result : Except Fault Update}

/-- A follower before and after something happened to its replica of one object. -/
structure Touches (id : ObjectId) (replica : Option Replica) (f after : Follower) : Prop where
  catalog : after.catalog = f.catalog
  config : after.config = f.config
  there : after.replicas.get? id = replica
  others : ∀ other, other ≠ id → after.replicas.get? other = f.replicas.get? other

theorem touches_self (there : f.replicas.get? id = some r) : f.Touches id (some r) f :=
  ⟨rfl, rfl, there, fun _ _ => rfl⟩

theorem touches_put (f : Follower) (id : ObjectId) (r : Replica) (heard : List Notice) :
    f.Touches id (some r) { f with replicas := f.replicas.put id r, heard := heard } :=
  ⟨rfl, rfl, Entries.get?_put_self _ _ _, fun _ different => Entries.get?_put_ne different _ _⟩

theorem touches_erase (f : Follower) (id : ObjectId) :
    f.Touches id none { f with replicas := f.replicas.erase id } := by
  refine ⟨rfl, rfl, ?_, fun other different => ?_⟩
  · simp [Entries.get?_erase]
  · simp [Entries.get?_erase, different]

theorem replicaOf_ok (there : f.replicas.get? id = some r) : replicaOf id f = .ok r f := by
  rw [replicaOf, get_bind, there]
  rfl

theorem replicaOf_missing (missing : f.replicas.get? id = none) :
    replicaOf id f = .error (.unknownObject id) f := by
  rw [replicaOf, get_bind, missing]
  rfl

theorem handleBytes_eq {bytes : Octets} {m : Message} (decoded : Message.decode bytes = .ok m) :
    handleBytes bytes f = handle m f := bind_ok (demand_ok decoded f)

theorem materialize_ok {seq : Seq} {body : Octets} {o : SharedObject}
    (made : SharedObject.ofSnapshot f.catalog id body = .ok o) :
    ∃ after, (handle (.snapshot id seq body)).outcome f = (.ok (.materialized id), after) ∧
      f.Touches id (some ⟨o, .startAfter id seq f.config⟩) after := by
  refine ⟨_, outcome_ok ?_, touches_put f id _ f.heard⟩
  rw [handle, materialize, get_bind, bind_ok (demand_ok made f)]
  rfl

theorem materialize_refused {seq : Seq} {body : Octets} {fault : Fault}
    (refused : SharedObject.ofSnapshot f.catalog id body = .error fault) :
    (handle (.snapshot id seq body)).outcome f = (.error fault, f) := by
  refine outcome_error ?_
  rw [handle, materialize, get_bind, bind_error (demand_error refused f)]

theorem drop_ok (there : f.replicas.get? id = some r) :
    ∃ after, (handle (.removed id)).outcome f = (.ok (.removed id), after) ∧
      f.Touches id none after := by
  refine ⟨_, outcome_ok ?_, touches_erase f id⟩
  rw [handle, drop, bind_ok (replicaOf_ok there)]
  rfl

theorem drop_missing (missing : f.replicas.get? id = none) :
    (handle (.removed id)).outcome f = (.error (.unknownObject id), f) :=
  outcome_error (bind_error (replicaOf_missing missing))

def settle (id : ObjectId) (r : Replica) (s : Sequencer (Seq × Event)) :
    Arrival (Seq × Event) → FollowerAction Update
  | .duplicate => return .duplicate id
  | .buffered => do
    putReplica id { r with sequencer := s }
    return .buffered id
  | .ready events => do
    let replay := r.object.replay events
    putReplica id ⟨replay.object, s⟩
    modify (fun f => { f with heard := f.heard ++ replay.notices })
    return .applied id replay.count replay.rejected

theorem takeEvent_undecoded {seq : Seq} {body : Octets} {fault : Fault}
    (failed : Event.decode f.catalog body = .error fault) :
    (handle (.event seq body)).outcome f = (.error fault, f) := by
  refine outcome_error ?_
  rw [handle, takeEvent, get_bind, bind_error (demand_error failed f)]

section Events

variable {seq : Seq} {body : Octets} {event : Event}
  (decoded : Event.decode f.catalog body = .ok event)
include decoded

theorem takeEvent_missing (missing : f.replicas.get? event.object = none) :
    (handle (.event seq body)).outcome f = (.error (.unknownObject event.object), f) := by
  refine outcome_error ?_
  rw [handle, takeEvent, get_bind, bind_ok (demand_ok decoded f),
    bind_error (replicaOf_missing missing)]

theorem takeEvent_refused (there : f.replicas.get? event.object = some r) {fault : Fault}
    (refused : r.sequencer.accept seq (seq, event) = .error fault) :
    (handle (.event seq body)).outcome f = (.error fault, f) := by
  refine outcome_error ?_
  rw [handle, takeEvent, get_bind, bind_ok (demand_ok decoded f), bind_ok (replicaOf_ok there),
    bind_error (demand_error refused f)]

theorem takeEvent_eq (there : f.replicas.get? event.object = some r)
    {arrival : Arrival (Seq × Event)} {s : Sequencer (Seq × Event)}
    (accepted : r.sequencer.accept seq (seq, event) = .ok (arrival, s)) :
    handle (.event seq body) f = settle event.object r s arrival f := by
  rw [handle, takeEvent, get_bind, bind_ok (demand_ok decoded f), bind_ok (replicaOf_ok there),
    bind_ok (demand_ok accepted f)]
  cases arrival <;> rfl

theorem takeEvent_ok (there : f.replicas.get? event.object = some r)
    {arrival : Arrival (Seq × Event)} {s : Sequencer (Seq × Event)}
    (accepted : r.sequencer.accept seq (seq, event) = .ok (arrival, s)) :
    ∃ update after, (handle (.event seq body)).outcome f = (.ok update, after) ∧
      f.Touches event.object (some (r.taking s arrival)) after ∧
      (∀ id, update ≠ .materialized id) ∧
      ∀ id count rejected, update = .applied id count rejected →
        ∃ events, arrival = .ready events ∧ rejected = (r.object.replay events).rejected := by
  have step := takeEvent_eq decoded there accepted
  cases arrival with
  | duplicate =>
    have same : s = r.sequencer := Sequencer.eq_of_duplicate accepted
    refine ⟨_, _, outcome_ok step, ?_, nofun, nofun⟩
    subst same
    exact touches_self there
  | buffered => exact ⟨_, _, outcome_ok step, touches_put f _ _ f.heard, nofun, nofun⟩
  | ready events =>
    refine ⟨_, _, outcome_ok step, touches_put f _ _ _, nofun, ?_⟩
    rintro _ _ _ ⟨⟩
    exact ⟨events, rfl, rfl⟩

end Events

end Follower

end SharedObjects
