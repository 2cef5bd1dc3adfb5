import SharedObjects.Proofs.Hub.Runs
set_option autoImplicit false

namespace SharedObjects

namespace Seq

def ofNat (n : Nat) : Seq := ⟨UInt64.ofNat n⟩

theorem next_ofNat (n : Nat) : (ofNat n).next = ofNat (n + 1) := by
  simp [ofNat, next, UInt64.ofNat_add]

end Seq

def HubOperation.event? (c : Catalog) : HubOperation → Option Event
  | .publish _ event | .post _ event => some event
  | .forward message =>
    match Message.decode message with
    | .ok (.forwardEvent body) => (Event.decode c body).toOption
    | _ => none
  | _ => none

def Message.position? : Message → Option Seq
  | .event seq _ => some seq
  | _ => none

theorem Event.peekObject_encode {c : Catalog} {event : Event} {body : Octets}
    (encoded : event.encode c = .ok body) : peekObject body = .ok event.object := by
  obtain ⟨_, rfl⟩ := encode_eq_ok_iff.mp encoded
  have long : Octets.atLeast 4 (event.wire c) = true := by
    have := event.eventHeaderSize_lt (c := c)
    exact Octets.atLeast_iff.mpr (by simp only [eventHeaderSize] at this; omega)
  have front : (event.wire c).take 4 = event.object.toOctets := by
    simp [wire, ObjectId.toOctets]
  rw [peekObject, if_pos long, front, ObjectId.ofOctets_toOctets]

variable {τ : Type}

namespace Hub

variable {hub after : Hub τ} {op : HubOperation} {result : Except Fault HubAnswer}
  {sent : List (EndpointId × Message)} {id : ObjectId}

/-- What a hub offers, and why. -/
inductive Offering (hub : Hub τ) (op : HubOperation) (result : Except Fault HubAnswer) :
    List (EndpointId × Message) → Prop
  | nothing (unpublished : publication? result = none) (kept : removal? result = none)
    (unjoined : result ≠ .ok .subscribed) : Offering hub op result []
  | refusal {id : ObjectId} {e : EndpointId} {fault : Fault} (asked : op = .subscribe id e)
    (failed : result = .error fault) (missing : hub.hosted.get? id = none) :
    Offering hub op result ((Message.refusal id).toEach [e])
  | snapshot {id : ObjectId} {e : EndpointId} {hosted : Hosted} {o : SharedObject} {body : Octets}
    (asked : op = .subscribe id e) (shows : hub.Shows id hosted o body)
    (unpublished : publication? result = none) (kept : removal? result = none) :
    Offering hub op result ((Message.snapshot id hosted.last body).toEach [e])
  | event {id : ObjectId} {hosted : Hosted} {event : Event} {body : Octets}
    (asked : op.event? hub.catalog = some event) (named : event.object = id)
    (encoded : event.encode hub.catalog = .ok body) (held : hub.hosted.get? id = some hosted)
    (published : publication? result = some id) :
    Offering hub op result
      ((Message.event hosted.last.next body).toEach hosted.subscribers.endpoints)
  | removed {now : Instant} {id : ObjectId} {hosted : Hosted} (asked : op = .unregister now id)
    (held : hub.hosted.get? id = some hosted) (removed : removal? result = some id) :
    Offering hub op result ((Message.removed id).toEach hosted.subscribers.endpoints)

theorem InOrder.named {event : Event} {hosted : Hosted} {o next : SharedObject} {body : Octets}
    (order : hub.InOrder) (takes : hub.Takes id event hosted o next body) : event.object = id := by
  obtain ⟨p, shared, named, -⟩ := (order.serves id hosted takes.held).shared
  obtain rfl : o = p := Option.some.inj (takes.shared.symm.trans shared)
  obtain ⟨-, same, -⟩ := SharedObject.apply_ok takes.applied
  exact same.trans named

variable [Carrier τ]

theorem Outcome.offering (outcome : Outcome hub op result sent after) (order : hub.InOrder) :
    Offering hub op result sent := by
  cases outcome with
  | @missing id e missing =>
    refine .refusal rfl rfl ?_
    cases held : hub.hosted.get? id with
    | none => rfl
    | some hosted =>
      obtain ⟨o, shared, -, live⟩ := (order.serves id hosted held).shared
      exact absurd live (missing hosted o held shared)
  | refused shows => exact .snapshot rfl shows rfl rfl
  | subscribed shows => exact .snapshot rfl shows rfl rfl
  | published held _ _ encoded =>
    rw [(order.serves _ _ held).tidy.active_eq]
    exact .event rfl rfl encoded held rfl
  | posted takes =>
    rw [(order.serves _ _ takes.held).tidy.active_eq]
    exact .event rfl (order.named takes) takes.encoded takes.held rfl
  | @forwarded message encoded event _ _ _ decoded read posts =>
    have asked : (HubOperation.forward message).event? hub.catalog = some event := by
      simp only [HubOperation.event?, decoded, read]
      rfl
    cases posts with
    | failed => exact .nothing rfl rfl nofun
    | posted takes =>
      rw [(order.serves _ _ takes.held).tidy.active_eq]
      exact .event asked (order.named takes) takes.encoded takes.held rfl
  | unregistered held => exact .removed rfl held rfl
  | _ => exact .nothing rfl rfl nofun

end Hub

namespace Turn

variable {t : Turn τ} {past : List (Turn τ)} {h : Handle} {e : EndpointId} {id : ObjectId}

/-- What the endpoints are told about one object in a turn, after so many events of it. -/
inductive Tells (past : List (Turn τ)) (t : Turn τ) (h : Handle) :
    (EndpointId → List Message) → Prop
  | silence (unpublished : ¬t.publishes h) (kept : ¬t.unregisters h)
    (unjoined : ∀ e, ¬t.Joins h e) : Tells past t h fun _ => []
  /-- Who asks gets the object as it is, with the number of events published so far. -/
  | snapshot {id : ObjectId} {asker : EndpointId} {o : SharedObject} {body : Octets}
    (unpublished : ¬t.publishes h) (kept : ¬t.unregisters h)
    (asked : t.operation = .subscribe id asker) (named : t.before.handle? id = some h)
    (shared : t.before.objectAt? h = some o) (written : o.snapshot t.before.catalog = .ok body) :
    Tells past t h fun e =>
      if e = asker then [.snapshot id (.ofNat (publications past h)) body] else []
  /-- Every subscriber gets the event that was asked for, once and with the next number. -/
  | event {event : Event} {body : Octets} (published : t.publishes h)
    (asked : t.operation.event? t.before.catalog = some event)
    (named : t.before.handle? event.object = some h)
    (encoded : event.encode t.before.catalog = .ok body) :
    Tells past t h fun e => if e ∈ t.before.audience h
      then [.event (.ofNat (publications past h + 1)) body] else []
  /-- Every subscriber learns once that the hosting has ended. -/
  | removal {now : Instant} {id : ObjectId} (ended : t.unregisters h)
    (asked : t.operation = .unregister now id) (named : t.before.handle? id = some h) :
    Tells past t h fun e => if e ∈ t.before.audience h then [.removed id] else []

/-- What has to hold of one turn of a run, given the turns before it. -/
structure Lawful (past : List (Turn τ)) (t : Turn τ) : Prop where
  follows : ∀ h, t.before.audience h = hearers past h
  /-- Whatever is offered is about a hosted object, or says that there is no such object. -/
  legible : ∀ e bytes, (e, bytes) ∈ t.offers → ∃ m, Message.decode bytes = .ok m ∧
    ((∃ h, m ∈ t.told h e) ∨
      ∃ id, m = .refusal id ∧ t.operation = .subscribe id e ∧ t.before.handle? id = none)
  tells : ∀ h, t.Tells past h (t.told h)
  /-- Whoever asks for the end of a hosting brings it about. -/
  ends : ∀ now id h, t.operation = .unregister now id → t.before.handle? id = some h →
    t.unregisters h
  /-- Only who joins becomes a subscriber, and only who leaves is one no longer. -/
  members : ∀ h e, e ∈ t.after.audience h ↔
    t.Joins h e ∨ (e ∈ t.before.audience h ∧ ¬t.Leaves h e)

theorem removal?_of_publication? {result : Except Fault HubAnswer}
    (published : publication? result = some id) : removal? result = none := by
  unfold publication? at published
  split at published
  · rfl
  · cases published

theorem publication?_of_removal? {result : Except Fault HubAnswer}
    (removed : removal? result = some id) : publication? result = none := by
  unfold removal? at removed
  split at removed
  · rfl
  · cases removed

theorem publishes_iff : t.publishes h ↔
    ∃ id, publication? t.answer = some id ∧ t.before.handle? id = some h := by
  simp [publishes, Option.bind_eq_some_iff]

theorem unregisters_iff : t.unregisters h ↔
    ∃ id, removal? t.answer = some id ∧ t.before.handle? id = some h := by
  simp [unregisters, Option.bind_eq_some_iff]

theorem subject?_event {event : Event} {body : Octets}
    (encoded : event.encode t.before.catalog = .ok body) (seq : Seq) :
    t.subject? (.event seq body) = t.before.handle? event.object := by
  simp [subject?, Message.object, Event.peekObject_encode encoded]

theorem publishes_of_some (published : publication? t.answer = some id) :
    t.publishes h ↔ t.before.handle? id = some h := by simp [publishes, published]

theorem unregisters_of_some (removed : removal? t.answer = some id) :
    t.unregisters h ↔ t.before.handle? id = some h := by simp [unregisters, removed]

theorem not_publishes (unpublished : publication? t.answer = none) : ¬t.publishes h := by
  simp [publishes, unpublished]

theorem not_unregisters (kept : removal? t.answer = none) : ¬t.unregisters h := by
  simp [unregisters, kept]

theorem not_publishes_of_unregisters (ends : t.unregisters h) : ¬t.publishes h := by
  obtain ⟨_, removed, -⟩ := unregisters_iff.mp ends
  exact not_publishes (publication?_of_removal? removed)

def Counted (past : List (Turn τ)) (hub : Hub (Recorded τ)) : Prop :=
  ∀ id hosted, hub.hosted.get? id = some hosted →
    hosted.last = .ofNat (publications past hosted.handle)

variable [Carrier τ] {sent : List (EndpointId × Message)}

theorem told_toEach {m : Message} {es : List EndpointId} (sends : t.Sends (m.toEach es))
    (once : es.Nodup) (h : Handle) (e : EndpointId) :
    t.told h e = if t.subject? m = some h ∧ e ∈ es then [m] else [] := by
  rw [told, sends.messages_eq, Message.toEach, List.filter_map, List.map_map]
  by_cases about : t.subject? m = some h
  · have single : es.filter (fun other => decide (other = e)) = if e ∈ es then [e] else [] := by
      rw [List.filter_eq]
      split
      · rw [List.count_eq_one_of_mem once ‹_›, List.replicate_one]
      · rw [List.count_eq_zero_of_not_mem ‹_›, List.replicate_zero]
    by_cases mem : e ∈ es <;> simp [about, mem, Function.comp_def, single]
  · simp [about, Function.comp_def]

theorem told_nil (sends : t.Sends []) (h : Handle) : t.told h = fun _ => [] := by
  funext e
  simp [told, sends.messages_eq]

theorem told_of_ne {m : Message} {es : List EndpointId} (sends : t.Sends (m.toEach es))
    (once : es.Nodup) (apart : t.subject? m ≠ some h) : t.told h = fun _ => [] := by
  funext e
  rw [told_toEach sends once, if_neg fun both => apart both.1]

theorem told_of_held {m : Message} {hosted : Hosted} (order : t.before.InOrder)
    (held : t.before.hosted.get? id = some hosted)
    (sends : t.Sends (m.toEach hosted.subscribers.endpoints))
    (subject : t.subject? m = some hosted.handle) : t.told hosted.handle = fun e =>
      if e ∈ t.before.audience hosted.handle then [m] else [] := by
  funext e
  rw [told_toEach sends (order.serves _ _ held).tidy.distinct, subject, order.audience_eq held]
  simp

theorem Sends.legible (sends : t.Sends sent) (order : t.before.InOrder) {bytes : Octets}
    (offered : (e, bytes) ∈ t.offers) : ∃ m, Message.decode bytes = .ok m ∧
      ((∃ h, m ∈ t.told h e) ∨
        ∃ id, m = .refusal id ∧ t.operation = .subscribe id e ∧ t.before.handle? id = none) := by
  rw [sends.offers_eq] at offered
  obtain ⟨⟨receiver, m⟩, mem, same⟩ := List.mem_map.mp offered
  obtain ⟨rfl, rfl⟩ := Prod.mk.inj same
  refine ⟨m, Hub.Outcome.legible sends _ mem, ?_⟩
  have told {id : ObjectId} {hosted : Hosted} (held : t.before.hosted.get? id = some hosted)
      (about : t.subject? m = t.before.handle? id) : ∃ h, m ∈ t.told h receiver := by
    have subject : t.subject? m = some hosted.handle := by simp [about, Hub.handle?, held]
    refine ⟨hosted.handle, List.mem_map.mpr ⟨(receiver, m), List.mem_filter.mpr ⟨?_, ?_⟩, rfl⟩⟩
    · rwa [sends.messages_eq]
    · simp [subject]
  have offering := Hub.Outcome.offering sends order
  cases offering with
  | nothing => cases mem
  | refusal asked failed missing =>
    obtain ⟨asker, rfl⟩ := Message.mem_toEach.mp mem
    obtain rfl := List.mem_singleton.mp asker
    exact .inr ⟨_, rfl, asked, by simp [Hub.handle?, missing]⟩
  | snapshot asked shows =>
    obtain ⟨-, rfl⟩ := Message.mem_toEach.mp mem
    exact .inl (told shows.held rfl)
  | event asked named encoded held =>
    obtain ⟨-, rfl⟩ := Message.mem_toEach.mp mem
    exact .inl (told held (named ▸ subject?_event encoded _))
  | removed asked held =>
    obtain ⟨-, rfl⟩ := Message.mem_toEach.mp mem
    exact .inl (told held rfl)

theorem Sends.tells (sends : t.Sends sent) (order : t.before.InOrder)
    (counted : Counted past t.before) (h : Handle) : t.Tells past h (t.told h) := by
  have offering := Hub.Outcome.offering sends order
  cases offering with
  | nothing unpublished kept unjoined =>
    rw [told_nil sends h]
    exact .silence (not_publishes unpublished) (not_unregisters kept) fun e ⟨_, joins, _⟩ =>
      unjoined joins.2
  | @refusal id asker fault asked failed missing =>
    have nobody : t.subject? (.refusal id) ≠ some h := by
      simp [subject?, Message.object, Message.refusal, Hub.handle?, missing]
    rw [told_of_ne sends (List.nodup_singleton _) nobody]
    refine .silence (not_publishes ?_) (not_unregisters ?_) fun e ⟨_, joins, _⟩ => ?_
    · rw [failed]
      rfl
    · rw [failed]
      rfl
    · cases failed.symm.trans joins.2
  | @snapshot id asker hosted o body asked shows unpublished kept =>
    have named : t.before.handle? id = some hosted.handle := by simp [Hub.handle?, shows.held]
    have subject : t.subject? (.snapshot id hosted.last body) = some hosted.handle := named
    by_cases same : hosted.handle = h
    · subst same
      have stream : t.told hosted.handle = fun e => if e = asker
          then [.snapshot id (.ofNat (publications past hosted.handle)) body] else [] := by
        funext e
        rw [told_toEach sends (List.nodup_singleton _), subject, counted _ _ shows.held]
        simp
      rw [stream]
      exact .snapshot (not_publishes unpublished) (not_unregisters kept) asked named shows.shared
        shows.written
    · rw [told_of_ne sends (List.nodup_singleton _) (by simp [subject, same])]
      refine .silence (not_publishes unpublished) (not_unregisters kept) fun e ⟨_, joins, at_⟩ => ?_
      obtain ⟨rfl, -⟩ := HubOperation.subscribe.inj (asked.symm.trans joins.1)
      exact same (Option.some.inj (named.symm.trans at_))
  | @event id hosted event body asked about encoded held published =>
    have named : t.before.handle? id = some hosted.handle := by simp [Hub.handle?, held]
    have subject := (subject?_event encoded hosted.last.next).trans (about ▸ named)
    by_cases same : hosted.handle = h
    · subst same
      rw [told_of_held order held sends subject, counted _ _ held, Seq.next_ofNat]
      exact .event ((publishes_of_some published).mpr named) asked (about ▸ named) encoded
    · rw [told_of_ne sends (order.serves _ _ held).tidy.distinct (by simp [subject, same])]
      refine .silence ?_ (not_unregisters ?_) fun e ⟨_, joins, _⟩ => ?_
      · rw [publishes_of_some published, named]
        exact fun other => same (Option.some.inj other)
      · exact removal?_of_publication? published
      · rw [joins.2] at published
        cases published
  | @removed now id hosted asked held ended =>
    have named : t.before.handle? id = some hosted.handle := by simp [Hub.handle?, held]
    have subject : t.subject? (.removed id) = some hosted.handle := named
    by_cases same : hosted.handle = h
    · subst same
      rw [told_of_held order held sends subject]
      exact .removal ((unregisters_of_some ended).mpr named) asked named
    · rw [told_of_ne sends (order.serves _ _ held).tidy.distinct (by simp [subject, same])]
      refine .silence (not_publishes ?_) ?_ fun e ⟨_, joins, _⟩ => ?_
      · exact publication?_of_removal? ended
      · rw [unregisters_of_some ended, named]
        exact fun other => same (Option.some.inj other)
      · rw [joins.2] at ended
        cases ended

/-- Who hears of an object after a turn joined in it, or heard of it before and did not leave. -/
theorem Sends.members (sends : t.Sends sent) (order : t.before.InOrder) (h : Handle)
    (e : EndpointId) : e ∈ t.after.audience h ↔
      t.Joins h e ∨ (e ∈ t.before.audience h ∧ ¬t.Leaves h e) := by
  have later : t.after.InOrder := Hub.Outcome.inOrder sends order
  rw [later.mem_audience_iff, order.mem_audience_iff]
  constructor
  · rintro ⟨id, now, held, rfl, hears⟩
    obtain ⟨before, entry, fate⟩ := Hub.Outcome.origin sends order held
    cases fate with
    | arrives => cases hears
    | @stays hosted _ kept handle last tidy members =>
      have named : t.before.handle? id = some now.handle := by
        simp [Hub.handle?, entry, handle]
      rcases (members e).mp hears with joins | ⟨heard, stays⟩
      · exact .inl ⟨id, joins, named⟩
      · refine .inr ⟨⟨id, hosted, entry, handle.symm, heard⟩, ?_⟩
        rintro (⟨other, drops, there⟩ | ends)
        · obtain rfl := order.handle?_inj named there
          exact stays drops
        · obtain ⟨other, removed, there⟩ := unregisters_iff.mp ends
          obtain rfl := order.handle?_inj named there
          exact kept removed
  · rintro (⟨id, joins, named⟩ | ⟨⟨id, hosted, held, rfl, heard⟩, remains⟩)
    · obtain ⟨hosted, held, rfl⟩ := Hub.handle?_eq_some_iff.mp named
      obtain ⟨after, entry, fate⟩ := Hub.Outcome.future sends order held
      cases fate with
      | @stays _ now kept handle last tidy members =>
        exact ⟨id, now, entry, handle, (members e).mpr (.inl joins)⟩
      | leaves asked => cases asked.symm.trans joins.1
    · have named : t.before.handle? id = some hosted.handle := by simp [Hub.handle?, held]
      obtain ⟨after, entry, fate⟩ := Hub.Outcome.future sends order held
      cases fate with
      | @stays _ now kept handle last tidy members =>
        exact ⟨id, now, entry, handle, (members e).mpr (.inr ⟨heard, fun drops =>
          remains (.inl ⟨id, drops, named⟩)⟩)⟩
      | leaves asked removed =>
        exact absurd (.inr (unregisters_iff.mpr ⟨id, removed, named⟩)) remains

end Turn

end SharedObjects
