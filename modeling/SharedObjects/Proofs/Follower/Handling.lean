import SharedObjects.Proofs.Follower
set_option autoImplicit false

namespace SharedObjects

namespace Follower

open Attempt

/-- What comes of a message: the result, and the follower afterwards. -/
inductive Handles (f : Follower) : Message → Except Fault Update → Follower → Prop
  | refused (m : Message) (fault : Fault) : Handles f m (.error fault) f
  | told (id : ObjectId) (reason : String) :
    Handles f (.subscribeFailed id reason) (.ok (.subscribeFailed id reason)) f
  | materialized {id : ObjectId} {seq : Seq} {body : Octets} {o : SharedObject} {after : Follower}
    (made : SharedObject.ofSnapshot f.catalog id body = .ok o)
    (touches : f.Touches id (some ⟨o, .startAfter id seq f.config⟩) after) :
    Handles f (.snapshot id seq body) (.ok (.materialized id)) after
  | dropped {id : ObjectId} {after : Follower} (touches : f.Touches id none after) :
    Handles f (.removed id) (.ok (.removed id)) after
  | duplicate {seq : Seq} {body : Octets} {event : Event}
    (decoded : Event.decode f.catalog body = .ok event) :
    Handles f (.event seq body) (.ok (.duplicate event.object)) f
  | buffered {seq : Seq} {body : Octets} {event : Event} {r : Replica}
    {s : Sequencer (Seq × Event)} {after : Follower}
    (decoded : Event.decode f.catalog body = .ok event)
    (there : f.replicas.get? event.object = some r)
    (accepted : r.sequencer.accept seq (seq, event) = .ok (.buffered, s))
    (touches : f.Touches event.object (some { r with sequencer := s }) after) :
    Handles f (.event seq body) (.ok (.buffered event.object)) after
  | applied {seq : Seq} {body : Octets} {event : Event} {r : Replica}
    {batch : List (Seq × Event)} {s : Sequencer (Seq × Event)} {after : Follower}
    (decoded : Event.decode f.catalog body = .ok event)
    (there : f.replicas.get? event.object = some r)
    (accepted : r.sequencer.accept seq (seq, event) = .ok (.ready batch, s))
    (touches : f.Touches event.object (some ⟨(r.object.replay batch).object, s⟩) after) :
    Handles f (.event seq body) (.ok (.applied event.object (r.object.replay batch).count
      (r.object.replay batch).rejected)) after

variable {f after : Follower} {m : Message} {result : Except Fault Update}

theorem handles_event (f : Follower) (seq : Seq) (body : Octets) :
    ∃ result after, (handle (.event seq body)).outcome f = (result, after) ∧
      f.Handles (.event seq body) result after := by
  cases decoded : Event.decode f.catalog body with
  | error fault => exact ⟨_, _, takeEvent_undecoded decoded, .refused _ fault⟩
  | ok event =>
    cases there : f.replicas.get? event.object with
    | none => exact ⟨_, _, takeEvent_missing decoded there, .refused _ _⟩
    | some r =>
      cases accepted : r.sequencer.accept seq (seq, event) with
      | error fault => exact ⟨_, _, takeEvent_refused decoded there accepted, .refused _ _⟩
      | ok found =>
        obtain ⟨arrival, s⟩ := found
        have step := takeEvent_eq decoded there accepted
        cases arrival with
        | duplicate => exact ⟨_, _, outcome_ok step, .duplicate decoded⟩
        | buffered =>
          have touches := touches_put f event.object { r with sequencer := s } f.heard
          exact ⟨_, _, outcome_ok step, .buffered decoded there accepted touches⟩
        | ready batch =>
          exact ⟨_, _, outcome_ok step, .applied decoded there accepted (touches_put f _ _ _)⟩

theorem handles_message (f : Follower) (m : Message) :
    ∃ result after, (handle m).outcome f = (result, after) ∧ f.Handles m result after := by
  cases m with
  | snapshot id seq body =>
    cases made : SharedObject.ofSnapshot f.catalog id body with
    | error fault => exact ⟨_, _, materialize_refused made, .refused _ fault⟩
    | ok o =>
      obtain ⟨after, step, touches⟩ := materialize_ok made
      exact ⟨_, _, step, .materialized made touches⟩
  | event seq body => exact handles_event f seq body
  | removed id =>
    cases there : f.replicas.get? id with
    | none => exact ⟨_, _, drop_missing there, .refused _ _⟩
    | some r =>
      obtain ⟨after, step, touches⟩ := drop_ok there
      exact ⟨_, _, step, .dropped touches⟩
  | subscribeFailed id reason => exact ⟨_, _, outcome_ok rfl, .told id reason⟩
  | forwardEvent body => exact ⟨_, _, outcome_error rfl, .refused _ _⟩

/-- Whatever arrives, what a follower makes of it is one of these. -/
theorem handles (f : Follower) (m : Message) :
    f.Handles m ((handle m).outcome f).1 ((handle m).outcome f).2 := by
  obtain ⟨result, after, step, handles⟩ := handles_message f m
  rwa [step]

theorem Handles.frame (handles : f.Handles m result after) :
    after.catalog = f.catalog ∧ after.config = f.config := by
  cases handles with
  | materialized _ touches | dropped touches | buffered _ _ _ touches | applied _ _ _ touches =>
    exact ⟨touches.catalog, touches.config⟩
  | _ => exact ⟨rfl, rfl⟩

end Follower

end SharedObjects
