import Mathlib.Data.Nat.Digits.Defs
import Mathlib.Data.String.Basic
import SharedObjects.Hub
import SharedObjects.Proofs.Hub.Subscribers
import SharedObjects.Proofs.Steps
import SharedObjects.Proofs.Wire.Traffic
set_option autoImplicit false

namespace SharedObjects

variable {τ : Type}

namespace Carrier

def sendAll [Carrier τ] (message : Octets) (es : List EndpointId) (t : τ) : τ :=
  es.foldl (fun t e => (send e message t).2) t

def answers [Carrier τ] (message : Octets) :
    List EndpointId → τ → List (EndpointId × Except DeliveryFault Unit)
  | [], _ => []
  | e :: es, t => (e, (send e message t).1) :: answers message es (send e message t).2

end Carrier

def takers (answers : List (EndpointId × Except DeliveryFault Unit)) : Nat :=
  answers.countP fun a => a.2.isOk

def refusals (answers : List (EndpointId × Except DeliveryFault Unit)) :
    List (EndpointId × DeliveryFault) :=
  answers.filterMap fun a =>
    match a.2 with
    | .ok _ => none
    | .error fault => some (a.1, fault)

namespace HubTally

def subscribe (t : HubTally) (added : Bool) : HubTally :=
  { t with
    delivered := t.delivered + 1
    subscriptions := t.subscriptions + if added then 1 else 0 }

def publish (t : HubTally) (r : Report) : HubTally :=
  { t with
    published := t.published + 1
    delivered := t.delivered + .ofNat r.delivered
    failed := t.failed + .ofNat r.failures.length }

def unregister (t : HubTally) (r : Report) : HubTally :=
  { t with
    unregistered := t.unregistered + 1
    delivered := t.delivered + .ofNat r.delivered
    failed := t.failed + .ofNat r.failures.length }

end HubTally

/-- What an endpoint is told that wants to subscribe to an object that is not there. -/
def Message.refusal (id : ObjectId) : Message := .subscribeFailed id (Fault.unknownObject id).text

theorem utf8ByteSize_le (s : String) : s.utf8ByteSize ≤ 4 * s.length := by
  rw [← String.ofList_toList (s := s), String.utf8ByteSize_ofList, String.length_ofList]
  induction s.toList with
  | nil => simp
  | cons c cs ih =>
    have := c.utf8Size_le_four
    simp only [String.utf8Len_cons, List.length_cons]
    omega

theorem Message.fits_refusal (id : ObjectId) : (Message.refusal id).Fits := by
  have digits : (Nat.repr id.number.toNat).length ≤ 10 :=
    Nat.repr_length _ _ (by decide) (Nat.lt_trans id.number.toNat_lt (by decide))
  have number := utf8ByteSize_le (Nat.repr id.number.toNat)
  have label := utf8ByteSize_le "Unknown object: "
  have length : "Unknown object: ".length = 16 := by decide
  change ("Unknown object: " ++ Nat.repr id.number.toNat).utf8ByteSize ≤ maxTextSize
  rw [String.utf8ByteSize_append, maxTextSize]
  omega

theorem SharedObject.snapshot_of_unknown {c : Catalog} {o : SharedObject}
    (unknown : c.get? o.type.name = none) :
    o.snapshot c = .error (.encoding (.uncoded o.type.name)) := by
  have uncoded : Write.typeTag c o.type.name = Write.fail (.uncoded o.type.name) := by
    simp only [Write.typeTag, unknown]
  rw [snapshot, writeSnapshot, uncoded]
  rfl

theorem SharedObject.known_of_snapshot {c : Catalog} {o : SharedObject} {body : Octets}
    (written : o.snapshot c = .ok body) : ∃ type, c.get? o.type.name = some type := by
  cases known : c.get? o.type.name with
  | none =>
    rw [snapshot_of_unknown known] at written
    cases written
  | some type => exact ⟨type, rfl⟩

theorem SharedObject.snapshot_error {c : Catalog} {o : SharedObject} {fault : Fault}
    (unwritten : o.snapshot c = .error fault) : ∃ cause, fault = .encoding cause := by
  cases known : c.get? o.type.name with
  | none =>
    rw [snapshot_of_unknown known] at unwritten
    cases unwritten
    exact ⟨_, rfl⟩
  | some type =>
    have writes := Writes.snapshot known
    by_cases sendable : o.Sendable c
    · rw [snapshot, writes.bytesOf_eq_ok_iff.mpr ⟨sendable, rfl⟩] at unwritten
      cases unwritten
    · obtain ⟨cause, failed⟩ := writes.bytesOf_eq_error sendable
      rw [snapshot, failed] at unwritten
      cases unwritten
      exact ⟨cause, rfl⟩

namespace Hub

open Attempt

variable {hub : Hub τ} {id : ObjectId} {hosted : Hosted} {o : SharedObject} {now : Instant}

theorem object?_eq (held : hub.hosted.get? id = some hosted) :
    hub.object? id = hub.objectAt? hosted.handle := by simp [object?, held]

theorem objectAt?_set {h : Handle} (shared : hub.objectAt? h = some o) (after : SharedObject) :
    (hub.objects.set h.place after)[h.place]? = some after := by
  have within := (List.getElem?_eq_some_iff.mp shared).1
  simp [within]

theorem sharedAt_ok {h : Handle} (held : hub.objectAt? h = some o) :
    sharedAt h hub = .ok o hub := by
  simp only [sharedAt, get_bind, held]
  rfl

theorem sharedAt_error {h : Handle} (missing : hub.objectAt? h = none) :
    sharedAt h hub = .error (.unknownObject .none) hub := by
  simp only [sharedAt, get_bind, missing]
  rfl

theorem hostedAt_ok (held : hub.hosted.get? id = some hosted)
    (shared : hub.objectAt? hosted.handle = some o) :
    hostedAt id hub = .ok (hosted, o) hub := by
  simp only [hostedAt, get_bind, held, object?_eq held, shared]
  rfl

theorem hostedAt_error (missing : hub.object? id = none) :
    hostedAt id hub = .error (.unknownObject id) hub := by
  simp only [hostedAt, get_bind, missing]
  cases hub.hosted.get? id <;> rfl

theorem applyAt_ok {h : Handle} {e : Event} {after : SharedObject}
    (shared : hub.objectAt? h = some o) (applied : o.apply e = .ok after) :
    applyAt h e hub = .ok ()
      { hub with
        objects := hub.objects.set h.place after
        heard := hub.heard ++ after.notices e } := by
  rw [applyAt, bind_ok (sharedAt_ok shared), bind_ok (demand_ok applied _)]
  rfl

theorem applyAt_error {h : Handle} {e : Event} {fault : Fault}
    (shared : hub.objectAt? h = some o) (refused : o.apply e = .error fault) :
    applyAt h e hub = .error fault hub := by
  rw [applyAt, bind_ok (sharedAt_ok shared), bind_error (demand_error refused _)]

theorem hosted_cases (hub : Hub τ) (id : ObjectId) : hub.object? id = none ∨
    ∃ hosted o, hub.hosted.get? id = some hosted ∧ hub.objectAt? hosted.handle = some o := by
  cases held : hub.hosted.get? id with
  | none => exact .inl (by simp [object?, held])
  | some hosted =>
    cases shared : hub.objectAt? hosted.handle with
    | none => exact .inl (by rw [object?_eq held, shared])
    | some o => exact .inr ⟨hosted, o, rfl, shared⟩

def hosting (hub : Hub τ) (id : ObjectId) (o : SharedObject) (identifiers : Identifiers)
    (tally : HubTally) : Hub τ :=
  { hub with
    objects := hub.objects ++ [{ o with id := id, stage := .live }]
    identifiers := identifiers
    hosted := hub.hosted.put id ⟨⟨hub.objects.length⟩, .none, .zero⟩
    tally := tally }

theorem place_eq (o : SharedObject) (hub : Hub τ) :
    place o hub = .ok ⟨hub.objects.length⟩ { hub with objects := hub.objects ++ [o] } := rfl

theorem objectAt?_placed (o : SharedObject) (hub : Hub τ) :
    objectAt? { hub with objects := hub.objects ++ [o] } ⟨hub.objects.length⟩ = some o := by
  simp [objectAt?]

def registering (hub : Hub τ) (h : Handle) (id : ObjectId) (o : SharedObject)
    (identifiers : Identifiers) : Hub τ :=
  { hub with
    objects := hub.objects.set h.place { o with id := id, stage := .live }
    identifiers := identifiers
    hosted := hub.hosted.put id ⟨h, .none, .zero⟩
    tally := { hub.tally with registered := hub.tally.registered + 1 } }

theorem register_ok {h : Handle} {identifiers : Identifiers} (shared : hub.objectAt? h = some o)
    (unregistered : o.stage = .unregistered)
    (allocated : hub.identifiers.allocate now = some (id, identifiers)) :
    register now h hub = .ok id (hub.registering h id o identifiers) := by
  have live : o.goLive id = .ok { o with id := id, stage := .live } := by
    simp [SharedObject.goLive, unregistered]
  rw [register, bind_ok (sharedAt_ok shared)]
  simp only [unregistered, ne_eq, not_true_eq_false, if_false]
  rw [get_bind]
  simp only [allocated]
  rw [bind_ok (demand_ok live _)]
  rfl

theorem register_exhausted {h : Handle} (shared : hub.objectAt? h = some o)
    (unregistered : o.stage = .unregistered) (exhausted : hub.identifiers.allocate now = none) :
    register now h hub = .error (.encoding .identifiersExhausted) hub := by
  rw [register, bind_ok (sharedAt_ok shared)]
  simp only [unregistered, ne_eq, not_true_eq_false, if_false]
  rw [get_bind]
  simp only [exhausted]
  rfl

theorem register_cases (now : Instant) (h : Handle) (hub : Hub τ) :
    (∃ fault, register now h hub = .error fault hub) ∨
    ∃ o id identifiers, hub.objectAt? h = some o ∧ o.stage = .unregistered ∧
      hub.identifiers.allocate now = some (id, identifiers) := by
  cases shared : hub.objectAt? h with
  | none =>
    exact .inl ⟨_, by rw [register, bind_error (sharedAt_error shared)]⟩
  | some o =>
    by_cases unregistered : o.stage = .unregistered
    case neg =>
      refine .inl ⟨.alreadyRegistered o.id, ?_⟩
      rw [register, bind_ok (sharedAt_ok shared)]
      simp only [unregistered, ne_eq, not_false_eq_true, if_true]
      rfl
    cases allocated : hub.identifiers.allocate now with
    | some found => exact .inr ⟨o, found.1, found.2, rfl, unregistered, rfl⟩
    | none => exact .inl ⟨_, register_exhausted shared unregistered allocated⟩

theorem host_ok {identifiers : Identifiers} (unregistered : o.stage = .unregistered)
    (allocated : hub.identifiers.allocate now = some (id, identifiers)) :
    ∃ tally, host now o hub = .ok id (hub.hosting id o identifiers tally) := by
  have registered : (do register now (← place o) : HubAction τ ObjectId) hub =
      .ok id (hub.hosting id o identifiers
        { hub.tally with registered := hub.tally.registered + 1 }) := by
    rw [bind_ok (place_eq o hub), register_ok (objectAt?_placed o hub) unregistered allocated]
    simp [registering, hosting]
  exact ⟨_, by rw [host, registered]⟩

theorem host_exhausted (unregistered : o.stage = .unregistered)
    (exhausted : hub.identifiers.allocate now = none) :
    host now o hub = .error (.encoding .identifiersExhausted) hub := by
  have refused := register_exhausted (objectAt?_placed o hub) unregistered exhausted
  rw [host, bind_ok (place_eq o hub), refused]

theorem host_cases (now : Instant) (o : SharedObject) (hub : Hub τ) :
    (∃ fault, host now o hub = .error fault hub) ∨
    ∃ id identifiers tally, o.stage = .unregistered ∧
      host now o hub = .ok id (hub.hosting id o identifiers tally) := by
  rcases register_cases now ⟨hub.objects.length⟩ { hub with objects := hub.objects ++ [o] } with
    ⟨fault, failed⟩ | ⟨placed, id, identifiers, shared, unregistered, allocated⟩
  · refine .inl ⟨fault, ?_⟩
    rw [host, bind_ok (place_eq o hub), failed]
  · obtain rfl : o = placed := Option.some.inj ((objectAt?_placed o hub).symm.trans shared)
    have allocated : hub.identifiers.allocate now = some (id, identifiers) := allocated
    obtain ⟨tally, hosted⟩ := host_ok unregistered allocated
    exact .inr ⟨id, identifiers, tally, unregistered, hosted⟩

theorem unsubscribe_cases (id : ObjectId) (e : EndpointId) (hub : Hub τ) :
    (hub.hosted.get? id = none ∧ unsubscribe id e hub = .ok false hub) ∨
    ∃ hosted, hub.hosted.get? id = some hosted ∧ unsubscribe id e hub =
      .ok (hosted.subscribers.remove e).1
        { hub with
          hosted := hub.hosted.put id { hosted with
            subscribers := (hosted.subscribers.remove e).2 } } := by
  cases held : hub.hosted.get? id with
  | none =>
    refine .inl ⟨rfl, ?_⟩
    rw [unsubscribe, get_bind, held]
    rfl
  | some hosted =>
    refine .inr ⟨hosted, rfl, ?_⟩
    rw [unsubscribe, get_bind, held]
    rfl

theorem get?_hosted_without (hosted : Entries ObjectId Hosted) (e : EndpointId) (id : ObjectId) :
    Entries.get? id (hosted.map fun (id, h) =>
      (id, { h with subscribers := (h.subscribers.remove e).2 })) =
      (hosted.get? id).map fun h => { h with subscribers := (h.subscribers.remove e).2 } :=
  Entries.get?_map (fun h => { h with subscribers := (h.subscribers.remove e).2 }) id hosted

variable [Carrier τ] {e : Event} {after : SharedObject} {body : Octets}

theorem offer_eq (e : EndpointId) (message : Octets) (hub : Hub τ) :
    offer e message hub = .ok (Carrier.send e message hub.carrier).1
      { hub with carrier := (Carrier.send e message hub.carrier).2 } := rfl

theorem offerAll_ok (message : Octets) (es : List EndpointId) (hub : Hub τ) :
    offerAll message es hub =
      .ok (takers (Carrier.answers message es hub.carrier),
          refusals (Carrier.answers message es hub.carrier))
        { hub with carrier := Carrier.sendAll message es hub.carrier } := by
  induction es generalizing hub with
  | nil => rfl
  | cons e es ih =>
    have rest := ih { hub with carrier := (Carrier.send e message hub.carrier).2 }
    rw [offerAll, bind_ok (offer_eq e message hub), bind_ok rest]
    cases answer : (Carrier.send e message hub.carrier).1 <;>
      simp [Carrier.answers, takers, refusals, answer, Except.isOk, Except.toBool] <;> rfl

def report (hub : Hub τ) (id : ObjectId) (seq : Seq) (m : Message) (es : List EndpointId) :
    Report where
  object := id
  seq := seq
  delivered := takers (Carrier.answers m.wire es hub.carrier)
  failures := refusals (Carrier.answers m.wire es hub.carrier)

def published (hub : Hub τ) (id : ObjectId) (hosted : Hosted) (o : SharedObject) (e : Event)
    (body : Octets) (tally : HubTally) : Hub τ :=
  { hub with
    objects := hub.objects.set hosted.handle.place o
    hosted := hub.hosted.put id { hosted with last := hosted.last.next }
    carrier := Carrier.sendAll (Message.event hosted.last.next body).wire
      hosted.subscribers.active hub.carrier
    heard := hub.heard ++ o.notices e
    tally := tally }

def eventReport (hub : Hub τ) (id : ObjectId) (hosted : Hosted) (body : Octets) : Report :=
  hub.report id hosted.last.next (.event hosted.last.next body) hosted.subscribers.active

theorem fanOut_ok (held : hub.hosted.get? id = some hosted)
    (shared : hub.objectAt? hosted.handle = some o) (body : Octets) :
    fanOut id body hub = .ok (hub.eventReport id hosted body)
      { hub with
        hosted := hub.hosted.put id { hosted with last := hosted.last.next }
        carrier := Carrier.sendAll (Message.event hosted.last.next body).wire
          hosted.subscribers.active hub.carrier
        tally := hub.tally.publish (hub.eventReport id hosted body) } := by
  have message : (Message.event hosted.last.next body).encode = .ok _ :=
    Message.encode_eq_ok_iff.mpr ⟨trivial, rfl⟩
  have sent := offerAll_ok (Message.event hosted.last.next body).wire
    hosted.subscribers.active
    { hub with hosted := hub.hosted.put id { hosted with last := hosted.last.next } }
  have numbered : putHosted id { hosted with last := hosted.last.next } hub = .ok ()
      { hub with hosted := hub.hosted.put id { hosted with last := hosted.last.next } } := rfl
  rw [fanOut, bind_ok (hostedAt_ok held shared)]
  dsimp only
  rw [bind_ok (demand_ok message _), bind_ok numbered, bind_ok sent]
  rfl

/-- An event fits the wire, and the object hosted under this identifier takes it. -/
structure Takes (hub : Hub τ) (id : ObjectId) (e : Event) (hosted : Hosted)
    (o after : SharedObject) (body : Octets) : Prop where
  held : hub.hosted.get? id = some hosted
  shared : hub.objectAt? hosted.handle = some o
  live : o.stage = .live
  encoded : e.encode hub.catalog = .ok body
  applied : o.apply e = .ok after

theorem post_eq {e : Event} {body : Octets} (held : hub.hosted.get? id = some hosted)
    (shared : hub.objectAt? hosted.handle = some o) (live : o.stage = .live)
    (encoded : e.encode hub.catalog = .ok body) :
    post id e hub = (do applyAt hosted.handle e; fanOut id body) hub := by
  rw [post, bind_ok (hostedAt_ok held shared)]
  simp only [Stage.allowsEvents, live, decide_true, Bool.not_true, Bool.false_eq_true, if_false]
  rw [get_bind, bind_ok (demand_ok encoded _)]

theorem published_hosted (after : SharedObject) (e : Event) (body : Octets) (tally : HubTally)
    (other : ObjectId) : (hub.published id hosted after e body tally).hosted.get? other =
      if other = id then some { hosted with last := hosted.last.next }
      else hub.hosted.get? other := by
  split
  · rename_i same
    subst same
    exact Entries.get?_put_self _ _ _
  · rename_i different
    exact Entries.get?_put_ne different _ _

theorem published_objectAt (takes : hub.Takes id e hosted o after body) (tally : HubTally)
    (h : Handle) : (hub.published id hosted after e body tally).objectAt? h =
      if h = hosted.handle then some after else hub.objectAt? h := by
  have place : hosted.handle.place < hub.objects.length :=
    (List.getElem?_eq_some_iff.mp takes.shared).1
  have same : h = hosted.handle ↔ hosted.handle.place = h.place := by
    rw [Handle.mk.injEq, eq_comm]
  simp only [objectAt?, published, List.getElem?_set, same, place, if_true]

theorem Takes.post (takes : hub.Takes id e hosted o after body) :
    post id e hub = .ok (hub.eventReport id hosted body)
      (hub.published id hosted after e body
        (hub.tally.publish (hub.eventReport id hosted body))) := by
  have still := objectAt?_set takes.shared after
  rw [post_eq takes.held takes.shared takes.live takes.encoded,
    bind_ok (applyAt_ok takes.shared takes.applied)]
  exact @fanOut_ok τ
    { hub with
      objects := hub.objects.set hosted.handle.place after
      heard := hub.heard ++ after.notices e } id hosted after _ takes.held still body

theorem post_ok (takes : hub.Takes id e hosted o after body) :
    ∃ report tally, post id e hub = .ok report (hub.published id hosted after e body tally) :=
  ⟨_, _, takes.post⟩

theorem post_cases (id : ObjectId) (e : Event) (hub : Hub τ) :
    (∃ fault, post id e hub = .error fault hub) ∨
    ∃ hosted o after body report tally, hub.Takes id e hosted o after body ∧
      post id e hub = .ok report (hub.published id hosted after e body tally) := by
  rcases hub.hosted_cases id with missing | ⟨hosted, o, held, shared⟩
  · exact .inl ⟨_, by rw [post, bind_error (hostedAt_error missing)]⟩
  by_cases live : o.stage = .live
  case neg =>
    refine .inl ⟨.unknownObject id, ?_⟩
    rw [post, bind_ok (hostedAt_ok held shared)]
    simp only [Stage.allowsEvents, live, decide_false, Bool.not_false, if_true]
    rfl
  cases encoded : e.encode hub.catalog with
  | error fault =>
    refine .inl ⟨fault, ?_⟩
    rw [post, bind_ok (hostedAt_ok held shared)]
    simp only [Stage.allowsEvents, live, decide_true, Bool.not_true, Bool.false_eq_true, if_false]
    rw [get_bind, bind_error (demand_error encoded _)]
  | ok body =>
    cases applied : o.apply e with
    | error fault =>
      refine .inl ⟨fault, ?_⟩
      rw [post_eq held shared live encoded, bind_error (applyAt_error shared applied)]
    | ok after =>
      have takes : hub.Takes id e hosted o after body := ⟨held, shared, live, encoded, applied⟩
      obtain ⟨report, tally, posted⟩ := post_ok takes
      exact .inr ⟨hosted, o, after, body, report, tally, takes, posted⟩

def sending (hub : Hub τ) (id : ObjectId) (hosted : Hosted) (body : Octets) : Hub τ :=
  { hub with
    hosted := hub.hosted.put id { hosted with last := hosted.last.next }
    carrier := Carrier.sendAll (Message.event hosted.last.next body).wire
      hosted.subscribers.active hub.carrier
    tally := hub.tally.publish (hub.eventReport id hosted body) }

theorem publish_eq {e : Event} {body : Octets} (held : hub.hosted.get? id = some hosted)
    (shared : hub.objectAt? hosted.handle = some o) (allowed : o.stage.allowsPublishing = true)
    (named : e.object = id) (encoded : e.encode hub.catalog = .ok body) :
    publish id e hub = fanOut id body hub := by
  rw [publish, bind_ok (hostedAt_ok held shared)]
  simp only [allowed, Bool.not_true, Bool.false_eq_true, if_false, named, ne_eq, not_true_eq_false]
  rw [get_bind, bind_ok (demand_ok encoded _)]

theorem publish_cases (id : ObjectId) (e : Event) (hub : Hub τ) :
    (∃ fault, publish id e hub = .error fault hub) ∨
    ∃ hosted o body, hub.hosted.get? id = some hosted ∧ hub.objectAt? hosted.handle = some o ∧
      o.stage.allowsPublishing ∧ e.object = id ∧ e.encode hub.catalog = .ok body ∧
      publish id e hub = .ok (hub.eventReport id hosted body) (hub.sending id hosted body) := by
  rcases hub.hosted_cases id with missing | ⟨hosted, o, held, shared⟩
  · exact .inl ⟨_, by rw [publish, bind_error (hostedAt_error missing)]⟩
  cases allowed : o.stage.allowsPublishing with
  | false =>
    refine .inl ⟨.unknownObject id, ?_⟩
    rw [publish, bind_ok (hostedAt_ok held shared)]
    simp only [allowed, Bool.not_false, if_true]
    rfl
  | true =>
    by_cases named : e.object = id
    case neg =>
      refine .inl ⟨.unknownObject e.object, ?_⟩
      rw [publish, bind_ok (hostedAt_ok held shared)]
      simp only [allowed, Bool.not_true, Bool.false_eq_true, if_false, named, ne_eq,
        not_false_eq_true, if_true]
      rfl
    cases encoded : e.encode hub.catalog with
    | error fault =>
      refine .inl ⟨fault, ?_⟩
      rw [publish, bind_ok (hostedAt_ok held shared)]
      simp only [allowed, Bool.not_true, Bool.false_eq_true, if_false, named, ne_eq,
        not_true_eq_false]
      rw [get_bind, bind_error (demand_error encoded _)]
    | ok body =>
      refine .inr ⟨hosted, o, body, held, shared, allowed, named, rfl, ?_⟩
      rw [publish_eq held shared allowed named encoded]
      exact fanOut_ok held shared body

theorem handleForward_eq {message : Octets} {event : Event} {body : Octets}
    (decoded : Message.decode message = .ok (.forwardEvent body))
    (read : Event.decode hub.catalog body = .ok event) :
    handleForward message hub = post event.object event hub := by
  rw [handleForward, bind_ok (demand_ok decoded _)]
  dsimp only
  rw [get_bind, bind_ok (demand_ok read _)]

/-- What an endpoint forwards arrives as the event it encoded. -/
theorem handleForward_of_forwarded {message : Octets} {event : Event}
    (reachable : hub.catalog.Reachable) (keyed : event.WellKeyed)
    (sent : event.forwarded hub.catalog = .ok message) :
    handleForward message hub = post event.object event hub := by
  obtain ⟨body, encoded, decoded⟩ := Event.decode_forwarded sent
  exact handleForward_eq decoded (Event.decode_encode reachable keyed encoded)

theorem handleForward_cases (message : Octets) (hub : Hub τ) :
    (∃ fault, handleForward message hub = .error fault hub) ∨
    ∃ body e, Message.decode message = .ok (.forwardEvent body) ∧
      Event.decode hub.catalog body = .ok e ∧ handleForward message hub = post e.object e hub := by
  cases decoded : Message.decode message with
  | error fault => exact .inl ⟨fault, by rw [handleForward, bind_error (demand_error decoded _)]⟩
  | ok m =>
    cases m with
    | forwardEvent body =>
      cases found : Event.decode hub.catalog body with
      | error fault =>
        refine .inl ⟨fault, ?_⟩
        rw [handleForward, bind_ok (demand_ok decoded _)]
        dsimp only
        rw [get_bind, bind_error (demand_error found _)]
      | ok e => exact .inr ⟨body, e, rfl, found, handleForward_eq decoded found⟩
    | snapshot _ _ _ | event _ _ | removed _ | subscribeFailed _ _ =>
      exact .inl ⟨_, by rw [handleForward, bind_ok (demand_ok decoded _)]; rfl⟩

/-- The object hosted under this identifier is live and can be written as a whole. -/
structure Shows (hub : Hub τ) (id : ObjectId) (hosted : Hosted) (o : SharedObject)
    (body : Octets) : Prop where
  held : hub.hosted.get? id = some hosted
  shared : hub.objectAt? hosted.handle = some o
  live : o.stage = .live
  written : o.snapshot hub.catalog = .ok body

theorem trySubscribe_eq {body : Octets} (shows : hub.Shows id hosted o body) (e : EndpointId) :
    trySubscribe id e hub =
      (do
        match ← offer e (Message.snapshot id hosted.last body).wire with
        | .error fault =>
          count (fun t => { t with failed := t.failed + 1 })
          throw (.delivery fault)
        | .ok _ =>
          putHosted id { hosted with subscribers := (hosted.subscribers.add e).2 }
          count (fun t => { t with
            delivered := t.delivered + 1
            subscriptions := t.subscriptions + if (hosted.subscribers.add e).1 then 1 else 0 }) :
        HubAction τ Unit) hub := by
  have message : (Message.snapshot id hosted.last body).encode = .ok _ :=
    Message.encode_eq_ok_iff.mpr ⟨trivial, rfl⟩
  rw [trySubscribe, bind_ok (hostedAt_ok shows.held shows.shared)]
  simp only [Stage.allowsSubscribers, shows.live, decide_true, Bool.not_true, Bool.false_eq_true,
    if_false]
  rw [get_bind, bind_ok (demand_ok shows.written _)]
  exact bind_ok (demand_ok message _)

def joined (hub : Hub τ) (id : ObjectId) (e : EndpointId) (hosted : Hosted) (carrier : τ)
    (tally : HubTally) : Hub τ :=
  { hub with
    hosted := hub.hosted.put id { hosted with subscribers := (hosted.subscribers.add e).2 }
    carrier := carrier
    tally := tally }

theorem Shows.subscribe {body : Octets} (shows : hub.Shows id hosted o body) {e : EndpointId}
    {carrier : τ}
    (taken : Carrier.send e (Message.snapshot id hosted.last body).wire hub.carrier =
      (.ok (), carrier)) :
    subscribe id e hub = .ok ()
      (hub.joined id e hosted carrier (hub.tally.subscribe (hosted.subscribers.add e).1)) := by
  have offered : offer e (Message.snapshot id hosted.last body).wire hub =
      .ok (.ok ()) { hub with carrier := carrier } := by
    rw [offer_eq, taken]
  rw [Hub.subscribe, trySubscribe_eq shows, bind_ok offered]
  rfl

theorem subscribe_ok {body : Octets} (shows : hub.Shows id hosted o body) {e : EndpointId}
    {carrier : τ}
    (taken : Carrier.send e (Message.snapshot id hosted.last body).wire hub.carrier =
      (.ok (), carrier)) :
    ∃ tally, subscribe id e hub = .ok () (hub.joined id e hosted carrier tally) :=
  ⟨_, shows.subscribe taken⟩

theorem subscribe_refused {body : Octets} (shows : hub.Shows id hosted o body) {e : EndpointId}
    {carrier : τ} {fault : DeliveryFault}
    (refused : Carrier.send e (Message.snapshot id hosted.last body).wire hub.carrier =
      (.error fault, carrier)) :
    subscribe id e hub = .error (.delivery fault)
      { hub with
        carrier := carrier
        tally := { hub.tally with failed := hub.tally.failed + 1 } } := by
  have offered : offer e (Message.snapshot id hosted.last body).wire hub =
      .ok (.error fault) { hub with carrier := carrier } := by
    rw [offer_eq, refused]
  rw [subscribe, trySubscribe_eq shows, bind_ok offered]
  rfl

theorem subscribe_unwritten (held : hub.hosted.get? id = some hosted)
    (shared : hub.objectAt? hosted.handle = some o) (live : o.stage = .live) {fault : Fault}
    (unwritten : o.snapshot hub.catalog = .error fault) (e : EndpointId) :
    subscribe id e hub = .error fault hub := by
  have refused : trySubscribe id e hub = .error fault hub := by
    rw [trySubscribe, bind_ok (hostedAt_ok held shared)]
    simp only [Stage.allowsSubscribers, live, decide_true, Bool.not_true, Bool.false_eq_true,
      if_false]
    rw [get_bind, bind_error (demand_error unwritten _)]
  obtain ⟨cause, rfl⟩ := SharedObject.snapshot_error unwritten
  rw [subscribe, refused]

theorem refuseSubscription_ok (id : ObjectId) (e : EndpointId) (hub : Hub τ) :
    refuseSubscription id e (.unknownObject id) hub = .ok ()
      { hub with carrier := (Carrier.send e (Message.refusal id).wire hub.carrier).2 } := by
  have message : (Message.subscribeFailed id (Fault.unknownObject id).text).encode = .ok _ :=
    Message.encode_eq_ok_iff.mpr ⟨Message.fits_refusal id, rfl⟩
  unfold refuseSubscription
  simp only [message]
  rfl

theorem subscribe_missing (e : EndpointId)
    (missing : ∀ hosted o, hub.hosted.get? id = some hosted →
      hub.objectAt? hosted.handle = some o → o.stage ≠ .live) :
    subscribe id e hub = .error (.unknownObject id)
      { hub with carrier := (Carrier.send e (Message.refusal id).wire hub.carrier).2 } := by
  have refused : trySubscribe id e hub = .error (.unknownObject id) hub := by
    rcases hub.hosted_cases id with missing | ⟨hosted, o, held, shared⟩
    · rw [trySubscribe, bind_error (hostedAt_error missing)]
    · rw [trySubscribe, bind_ok (hostedAt_ok held shared)]
      simp only [Stage.allowsSubscribers, missing hosted o held shared, decide_false,
        Bool.not_false, if_true]
      rfl
  rw [subscribe, refused]
  dsimp only
  rw [bind_ok (refuseSubscription_ok id e hub)]
  rfl

/-- There is nothing to subscribe to, or what there is cannot be written, or the endpoint does not
take the snapshot; else it takes it and joins the subscribers. -/
theorem subscribe_cases (id : ObjectId) (e : EndpointId) (hub : Hub τ) :
    (∀ hosted o, hub.hosted.get? id = some hosted →
      hub.objectAt? hosted.handle = some o → o.stage ≠ .live) ∨
    (∃ fault, subscribe id e hub = .error fault hub) ∨
    (∃ hosted o body fault carrier, hub.Shows id hosted o body ∧
      Carrier.send e (Message.snapshot id hosted.last body).wire hub.carrier =
        (.error fault, carrier)) ∨
    ∃ hosted o body carrier, hub.Shows id hosted o body ∧
      Carrier.send e (Message.snapshot id hosted.last body).wire hub.carrier = (.ok (), carrier) :=
    by
  by_cases live : ∃ hosted o, hub.hosted.get? id = some hosted ∧
    hub.objectAt? hosted.handle = some o ∧ o.stage = .live
  case neg =>
    exact .inl fun hosted o held shared is => live ⟨hosted, o, held, shared, is⟩
  obtain ⟨hosted, o, held, shared, live⟩ := live
  cases written : o.snapshot hub.catalog with
  | error fault => exact .inr (.inl ⟨fault, subscribe_unwritten held shared live written e⟩)
  | ok body =>
    have shows : hub.Shows id hosted o body := ⟨held, shared, live, written⟩
    cases sent : Carrier.send e (Message.snapshot id hosted.last body).wire hub.carrier with
    | mk answer carrier =>
      cases answer with
      | error fault => exact .inr (.inr (.inl ⟨hosted, o, body, fault, carrier, shows, sent⟩))
      | ok _ => exact .inr (.inr (.inr ⟨hosted, o, body, carrier, shows, sent⟩))

def leaving (hub : Hub τ) (now : Instant) (id : ObjectId) (hosted : Hosted) (o : SharedObject)
    (tally : HubTally) : Hub τ :=
  { hub with
    objects := hub.objects.set hosted.handle.place { o with stage := .removed }
    carrier := Carrier.sendAll (Message.removed id).wire hosted.subscribers.endpoints hub.carrier
    hosted := hub.hosted.erase id
    identifiers := hub.identifiers.retire now id
    tally := tally }

theorem unregister_ok (held : hub.hosted.get? id = some hosted)
    (shared : hub.objectAt? hosted.handle = some o) (live : o.stage = .live) (now : Instant) :
    unregister now id hub =
      .ok (hub.report id hosted.last (.removed id) hosted.subscribers.endpoints)
        (hub.leaving now id hosted o (hub.tally.unregister
          (hub.report id hosted.last (.removed id) hosted.subscribers.endpoints))) := by
  have message : (Message.removed id).encode = .ok _ :=
    Message.encode_eq_ok_iff.mpr ⟨trivial, rfl⟩
  have begun : o.beginUnregister = .ok { o with stage := .unregistering } := by
    simp [SharedObject.beginUnregister, SharedObject.moveTo, live, Stage.canBecome]
  have ended : SharedObject.markRemoved { o with stage := .unregistering } =
      .ok { o with stage := .removed } := rfl
  have sent := offerAll_ok (Message.removed id).wire hosted.subscribers.endpoints hub
  rw [unregister, bind_ok (hostedAt_ok held shared)]
  simp only [live, ne_eq, not_true_eq_false, if_false]
  rw [bind_ok (demand_ok message _), bind_ok (demand_ok begun _), bind_ok sent,
    bind_ok (demand_ok ended _)]
  rfl

theorem unregister_cases (now : Instant) (id : ObjectId) (hub : Hub τ) :
    (∃ fault, unregister now id hub = .error fault hub) ∨
    ∃ hosted o report tally, hub.hosted.get? id = some hosted ∧
      hub.objectAt? hosted.handle = some o ∧ o.stage = .live ∧
      unregister now id hub = .ok report (hub.leaving now id hosted o tally) := by
  rcases hub.hosted_cases id with missing | ⟨hosted, o, held, shared⟩
  · exact .inl ⟨_, by rw [unregister, bind_error (hostedAt_error missing)]⟩
  by_cases live : o.stage = .live
  case neg =>
    refine .inl ⟨.unknownObject id, ?_⟩
    rw [unregister, bind_ok (hostedAt_ok held shared)]
    simp only [live, ne_eq, not_false_eq_true, if_true]
    rfl
  exact .inr ⟨hosted, o, _, _, held, shared, live, unregister_ok held shared live now⟩

end Hub

end SharedObjects
