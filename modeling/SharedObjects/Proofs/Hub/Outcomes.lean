import SharedObjects.Proofs.Hub.Operations
/-!
All that a hub can be asked, and what comes of it: the answer, the messages it offers to its carrier
and the hub afterwards. What holds after every operation is shown by going through the outcomes.
-/
set_option autoImplicit false

namespace SharedObjects

/-- What a hub can be asked. Who registers or unregisters an object reads the clock. -/
inductive HubOperation
  | place (o : SharedObject)
  | register (now : Instant) (h : Handle)
  | subscribe (id : ObjectId) (e : EndpointId)
  | unsubscribe (id : ObjectId) (e : EndpointId)
  | publish (id : ObjectId) (event : Event)
  | post (id : ObjectId) (event : Event)
  | forward (message : Octets)
  | unregister (now : Instant) (id : ObjectId)
  | disconnect (e : EndpointId)

/-- The operation takes an endpoint off the subscribers of an object. -/
def HubOperation.Drops (op : HubOperation) (id : ObjectId) (e : EndpointId) : Prop :=
  op = .unsubscribe id e ∨ op = .disconnect e

inductive HubAnswer
  | placed (h : Handle)
  | registered (id : ObjectId)
  | subscribed
  | unsubscribed (was : Bool)
  | published (report : Report)
  | unregistered (report : Report)
  | disconnected (dropped : Nat)

variable {τ : Type}

namespace Hub

section Answering

variable {α : Type} {action : HubAction τ α} {answer : α → HubAnswer} {hub after : Hub τ}

theorem outcome_answer {a : α} (step : action hub = .ok a after) :
    (do return answer (← action) : HubAction τ HubAnswer).outcome hub = (.ok (answer a), after) :=
  Attempt.outcome_ok (by rw [Attempt.bind_ok step]; rfl)

theorem outcome_fault {fault : Fault} (step : action hub = .error fault after) :
    (do return answer (← action) : HubAction τ HubAnswer).outcome hub = (.error fault, after) :=
  Attempt.outcome_error (by rw [Attempt.bind_error step])

end Answering

variable [Carrier τ]

def perform : HubOperation → HubAction τ HubAnswer
  | .place o => do return .placed (← place o)
  | .register now h => do return .registered (← register now h)
  | .subscribe id e => do
    subscribe id e
    return .subscribed
  | .unsubscribe id e => do return .unsubscribed (← unsubscribe id e)
  | .publish id event => do return .published (← publish id event)
  | .post id event => do return .published (← post id event)
  | .forward message => do return .published (← handleForward message)
  | .unregister now id => do return .unregistered (← unregister now id)
  | .disconnect e => do return .disconnected (← endpointDisconnected e)

end Hub

/-- A message that is read as what it was written from. -/
def Message.Legible (m : Message) : Prop := decode m.wire = .ok m

theorem Event.legible {c : Catalog} {event : Event} {body : Octets}
    (encoded : event.encode c = .ok body) (seq : Seq) : (Message.event seq body).Legible := by
  obtain ⟨_, rfl⟩ := Event.encode_eq_ok_iff.mp encoded
  exact Message.decode_wire (Nat.le_of_lt event.eventHeaderSize_lt) trivial

theorem Hub.Shows.legible {hub : Hub τ} {id : ObjectId} {hosted : Hosted} {o : SharedObject}
    {body : Octets} (shows : hub.Shows id hosted o body) :
    (Message.snapshot id hosted.last body).Legible := by
  obtain ⟨type, known⟩ := SharedObject.known_of_snapshot shows.written
  obtain ⟨_, rfl⟩ := (SharedObject.snapshot_eq_ok_iff known).mp shows.written
  exact Message.decode_wire (SharedObject.wire_ne_nil o) trivial

variable [Carrier τ]

def Carrier.offerEach (sent : List (EndpointId × Message)) (t : τ) : τ :=
  sent.foldl (fun t s => (send s.1 s.2.wire t).2) t

def Message.toEach (m : Message) (es : List EndpointId) : List (EndpointId × Message) :=
  es.map fun e => (e, m)

theorem Message.mem_toEach {m other : Message} {es : List EndpointId} {e : EndpointId} :
    (e, other) ∈ m.toEach es ↔ e ∈ es ∧ other = m := by simp [toEach, eq_comm]

theorem Message.Legible.toEach {m : Message} (legible : m.Legible) (es : List EndpointId) :
    ∀ s ∈ m.toEach es, s.2.Legible := by
  rintro ⟨e, other⟩ mem
  obtain ⟨-, rfl⟩ := Message.mem_toEach.mp mem
  exact legible

theorem Carrier.offerEach_toEach (m : Message) (es : List EndpointId) (t : τ) :
    offerEach (m.toEach es) t = sendAll m.wire es t := by
  simp [offerEach, sendAll, Message.toEach, List.foldl_map]

namespace Hub

open Attempt

def without (hub : Hub τ) (e : EndpointId) : Hub τ :=
  { hub with hosted := hub.hosted.map fun (id, h) =>
      (id, { h with subscribers := (h.subscribers.remove e).2 }) }

/-- What an operation comes to: the answer, the messages offered, and the hub afterwards. -/
inductive Outcome (hub : Hub τ) :
    HubOperation → Except Fault HubAnswer → List (EndpointId × Message) → Hub τ → Prop
  | failed {op : HubOperation} (fault : Fault) (keeps : ∀ id e, ¬op.Drops id e) :
    Outcome hub op (.error fault) [] hub
  | placed (o : SharedObject) :
    Outcome hub (.place o) (.ok (.placed ⟨hub.objects.length⟩)) []
      { hub with objects := hub.objects ++ [o] }
  | registered {now : Instant} {h : Handle} {id : ObjectId} {o : SharedObject}
    {identifiers : Identifiers}
    (shared : hub.objectAt? h = some o) (unregistered : o.stage = .unregistered)
    (allocated : hub.identifiers.allocate now = some (id, identifiers)) :
    Outcome hub (.register now h) (.ok (.registered id)) [] (hub.registering h id o identifiers)
  | missing {id : ObjectId} (e : EndpointId)
    (missing : ∀ hosted o, hub.hosted.get? id = some hosted →
      hub.objectAt? hosted.handle = some o → o.stage ≠ .live) :
    Outcome hub (.subscribe id e) (.error (.unknownObject id)) [(e, .refusal id)]
      { hub with carrier := (Carrier.send e (Message.refusal id).wire hub.carrier).2 }
  | refused {id : ObjectId} {e : EndpointId} {hosted : Hosted} {o : SharedObject} {body : Octets}
    {fault : DeliveryFault} {carrier : τ} (shows : hub.Shows id hosted o body)
    (refused : Carrier.send e (Message.snapshot id hosted.last body).wire hub.carrier =
      (.error fault, carrier)) :
    Outcome hub (.subscribe id e) (.error (.delivery fault)) [(e, .snapshot id hosted.last body)]
      { hub with
        carrier := carrier
        tally := { hub.tally with failed := hub.tally.failed + 1 } }
  | subscribed {id : ObjectId} {e : EndpointId} {hosted : Hosted} {o : SharedObject} {body : Octets}
    {carrier : τ} (shows : hub.Shows id hosted o body)
    (taken : Carrier.send e (Message.snapshot id hosted.last body).wire hub.carrier =
      (.ok (), carrier)) :
    Outcome hub (.subscribe id e) (.ok .subscribed) [(e, .snapshot id hosted.last body)]
      (hub.joined id e hosted carrier (hub.tally.subscribe (hosted.subscribers.add e).1))
  | stranger {id : ObjectId} (e : EndpointId) (missing : hub.hosted.get? id = none) :
    Outcome hub (.unsubscribe id e) (.ok (.unsubscribed false)) [] hub
  | unsubscribed {id : ObjectId} (e : EndpointId) {hosted : Hosted}
    (held : hub.hosted.get? id = some hosted) :
    Outcome hub (.unsubscribe id e) (.ok (.unsubscribed (hosted.subscribers.remove e).1)) []
      { hub with
        hosted := hub.hosted.put id { hosted with
          subscribers := (hosted.subscribers.remove e).2 } }
  | published {event : Event} {hosted : Hosted} {o : SharedObject} {body : Octets}
    (held : hub.hosted.get? event.object = some hosted)
    (shared : hub.objectAt? hosted.handle = some o) (allowed : o.stage.allowsPublishing)
    (encoded : event.encode hub.catalog = .ok body) :
    Outcome hub (.publish event.object event)
      (.ok (.published (hub.eventReport event.object hosted body)))
      ((Message.event hosted.last.next body).toEach hosted.subscribers.active)
      (hub.sending event.object hosted body)
  | posted {id : ObjectId} {event : Event} {hosted : Hosted} {o after : SharedObject}
    {body : Octets} (takes : hub.Takes id event hosted o after body) :
    Outcome hub (.post id event) (.ok (.published (hub.eventReport id hosted body)))
      ((Message.event hosted.last.next body).toEach hosted.subscribers.active)
      (hub.published id hosted after event body
        (hub.tally.publish (hub.eventReport id hosted body)))
  | forwarded {message encoded : Octets} {event : Event} {answer : Except Fault HubAnswer}
    {sent : List (EndpointId × Message)} {after : Hub τ}
    (decoded : Message.decode message = .ok (.forwardEvent encoded))
    (read : Event.decode hub.catalog encoded = .ok event)
    (posts : Outcome hub (.post event.object event) answer sent after) :
    Outcome hub (.forward message) answer sent after
  | unregistered {now : Instant} {id : ObjectId} {hosted : Hosted} {o : SharedObject}
    (held : hub.hosted.get? id = some hosted) (shared : hub.objectAt? hosted.handle = some o)
    (live : o.stage = .live) :
    Outcome hub (.unregister now id)
      (.ok (.unregistered
        (hub.report id hosted.last (.removed id) hosted.subscribers.endpoints)))
      ((Message.removed id).toEach hosted.subscribers.endpoints)
      (hub.leaving now id hosted o (hub.tally.unregister
        (hub.report id hosted.last (.removed id) hosted.subscribers.endpoints)))
  | disconnected (e : EndpointId) :
    Outcome hub (.disconnect e)
      (.ok (.disconnected (hub.hosted.filter fun h => h.2.subscribers.contains e).length)) []
      (hub.without e)

variable {hub after : Hub τ} {op : HubOperation} {result : Except Fault HubAnswer}
  {sent : List (EndpointId × Message)}

def Comes (op : HubOperation) (hub : Hub τ) : Prop :=
  ∃ sent, Outcome hub op ((perform op).outcome hub).1 sent ((perform op).outcome hub).2

theorem Comes.of_eq (performed : (perform op).outcome hub = (result, after))
    (outcome : Outcome hub op result sent after) : Comes op hub :=
  ⟨sent, by rwa [performed]⟩

theorem comes_register (now : Instant) (h : Handle) (hub : Hub τ) :
    Comes (.register now h) hub := by
  rcases register_cases now h hub with
    ⟨fault, step⟩ | ⟨o, id, identifiers, shared, stage, allocated⟩
  · exact .of_eq (outcome_fault step) (.failed fault (by simp [HubOperation.Drops]))
  · exact .of_eq (outcome_answer (register_ok shared stage allocated))
      (.registered shared stage allocated)

theorem comes_subscribe (id : ObjectId) (e : EndpointId) (hub : Hub τ) :
    Comes (.subscribe id e) hub := by
  have done {after : Hub τ} (step : subscribe id e hub = .ok () after) :
      (perform (.subscribe id e)).outcome hub = (.ok .subscribed, after) :=
    outcome_ok (by rw [perform, bind_ok step]; rfl)
  have failed {fault : Fault} {after : Hub τ} (step : subscribe id e hub = .error fault after) :
      (perform (.subscribe id e)).outcome hub = (.error fault, after) :=
    outcome_error (by rw [perform, bind_error step])
  rcases subscribe_cases id e hub with missing | ⟨fault, step⟩ |
    ⟨hosted, o, body, fault, carrier, shows, refused⟩ | ⟨hosted, o, body, carrier, shows, taken⟩
  · exact .of_eq (failed (subscribe_missing e missing)) (.missing e missing)
  · exact .of_eq (failed step) (.failed fault (by simp [HubOperation.Drops]))
  · exact .of_eq (failed (subscribe_refused shows refused)) (.refused shows refused)
  · exact .of_eq (done (shows.subscribe taken)) (.subscribed shows taken)

theorem comes_publish (id : ObjectId) (event : Event) (hub : Hub τ) :
    Comes (.publish id event) hub := by
  rcases publish_cases id event hub with
    ⟨fault, step⟩ | ⟨hosted, o, body, held, shared, allowed, rfl, encoded, step⟩
  · exact .of_eq (outcome_fault step) (.failed fault (by simp [HubOperation.Drops]))
  · exact .of_eq (outcome_answer step) (.published held shared allowed encoded)

theorem comes_post (id : ObjectId) (event : Event) (hub : Hub τ) : Comes (.post id event) hub := by
  rcases post_cases id event hub with ⟨fault, step⟩ | ⟨hosted, o, after, body, _, _, takes, _⟩
  · exact .of_eq (outcome_fault step) (.failed fault (by simp [HubOperation.Drops]))
  · exact .of_eq (outcome_answer takes.post) (.posted takes)

theorem comes_forward (message : Octets) (hub : Hub τ) : Comes (.forward message) hub := by
  rcases handleForward_cases message hub with ⟨fault, step⟩ | ⟨body, event, decoded, read, step⟩
  · exact .of_eq (outcome_fault step) (.failed fault (by simp [HubOperation.Drops]))
  · obtain ⟨sent, outcome⟩ := comes_post event.object event hub
    have same : (perform (.forward message)).outcome hub =
        (perform (.post event.object event)).outcome hub := by
      simp only [perform, Attempt.outcome, Bind.bind, EStateM.bind, step]
    exact ⟨sent, by rw [same]; exact .forwarded decoded read outcome⟩

theorem comes_unregister (now : Instant) (id : ObjectId) (hub : Hub τ) :
    Comes (.unregister now id) hub := by
  rcases unregister_cases now id hub with ⟨fault, step⟩ | ⟨hosted, o, _, _, held, shared, live, _⟩
  · exact .of_eq (outcome_fault step) (.failed fault (by simp [HubOperation.Drops]))
  · exact .of_eq (outcome_answer (unregister_ok held shared live now))
      (.unregistered held shared live)

/-- Whatever a hub is asked, what comes of it is one of the outcomes of that operation. -/
theorem comes (op : HubOperation) (hub : Hub τ) : Comes op hub := by
  cases op with
  | place o => exact ⟨_, .placed o⟩
  | register now h => exact comes_register now h hub
  | subscribe id e => exact comes_subscribe id e hub
  | unsubscribe id e =>
    rcases unsubscribe_cases id e hub with ⟨missing, step⟩ | ⟨hosted, held, step⟩
    · exact .of_eq (outcome_answer step) (.stranger e missing)
    · exact .of_eq (outcome_answer step) (.unsubscribed e held)
  | publish id event => exact comes_publish id event hub
  | post id event => exact comes_post id event hub
  | forward message => exact comes_forward message hub
  | unregister now id => exact comes_unregister now id hub
  | disconnect e => exact ⟨_, .disconnected e⟩

theorem Outcome.carrier_eq (outcome : Outcome hub op result sent after) :
    after.carrier = Carrier.offerEach sent hub.carrier := by
  induction outcome with
  | refused _ refused => simp [Carrier.offerEach, refused]
  | subscribed _ taken => simp [Carrier.offerEach, taken, joined]
  | published | posted | unregistered => exact (Carrier.offerEach_toEach _ _ _).symm
  | forwarded _ _ _ ih => exact ih
  | _ => rfl

theorem Outcome.legible (outcome : Outcome hub op result sent after) :
    ∀ s ∈ sent, s.2.Legible := by
  induction outcome with
  | @missing id e missing =>
    have legible : (Message.refusal id).Legible :=
      Message.decode_wire trivial (Message.fits_refusal id)
    simpa using legible
  | refused shows => simpa using shows.legible
  | subscribed shows => simpa using shows.legible
  | published _ _ _ encoded => exact (Event.legible encoded _).toEach _
  | posted takes => exact (Event.legible takes.encoded _).toEach _
  | forwarded _ _ _ ih => exact ih
  | @unregistered now id hosted o held shared live =>
    have legible : (Message.removed id).Legible := Message.decode_wire trivial trivial
    exact legible.toEach _
  | _ => nofun

end Hub

/-- A carrier that keeps a record of all it is offered, whether it takes it or not. -/
structure Recorded (τ : Type) where
  carrier : τ
  offers : List (EndpointId × Octets)

namespace Recorded

def send (e : EndpointId) (message : Octets) (r : Recorded τ) :
    Except DeliveryFault Unit × Recorded τ :=
  let (answer, carrier) := Carrier.send e message r.carrier
  (answer, ⟨carrier, r.offers ++ [(e, message)]⟩)

instance : Carrier (Recorded τ) := ⟨send⟩

theorem offers_offerEach (sent : List (EndpointId × Message)) (r : Recorded τ) :
    (Carrier.offerEach sent r).offers = r.offers ++ sent.map fun s => (s.1, s.2.wire) := by
  induction sent generalizing r with
  | nil => simp [Carrier.offerEach]
  | cons s rest ih =>
    obtain ⟨e, m⟩ := s
    have first : (Carrier.send e m.wire r).2.offers = r.offers ++ [(e, m.wire)] := rfl
    have later := ih (Carrier.send e m.wire r).2
    rw [first] at later
    simpa [Carrier.offerEach] using later

end Recorded

end SharedObjects
