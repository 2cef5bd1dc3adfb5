import SharedObjects.Proofs.Follower.Arrivals
/-!
Objects apart from each other. What a follower makes of a message goes by the replica of the object
that the message names and changes no other, so a follower is a replica for each object side by
side. How the messages about different objects are mixed therefore makes no difference to any.
-/
set_option autoImplicit false

namespace SharedObjects

/-- The message is about this object, or about no object at all. -/
def Message.Concerns (c : Catalog) (id : ObjectId) : Message → Prop
  | .snapshot object _ _ | .removed object | .subscribeFailed object _ => object = id
  | .event _ body => ∀ event, Event.decode c body = .ok event → event.object = id
  | .forwardEvent _ => True

def Replica.update (r : Replica) (id : ObjectId) : Arrival (Seq × Event) → Update
  | .duplicate => .duplicate id
  | .buffered => .buffered id
  | .ready events =>
    .applied id (r.object.replay events).count (r.object.replay events).rejected

namespace Follower

/-- One object by itself: what comes of a message, and the replica of the object afterwards. -/
def alone (c : Catalog) (config : SequencerConfig) (id : ObjectId) (replica : Option Replica) :
    Message → Except Fault Update × Option Replica
  | .snapshot _ seq body =>
    match SharedObject.ofSnapshot c id body with
    | .ok o => (.ok (.materialized id), some ⟨o, .startAfter id seq config⟩)
    | .error fault => (.error fault, replica)
  | .event seq body =>
    match Event.decode c body, replica with
    | .error fault, _ => (.error fault, replica)
    | .ok _, none => (.error (.unknownObject id), none)
    | .ok event, some r =>
      match r.sequencer.accept seq (seq, event) with
      | .ok (arrival, s) => (.ok (r.update id arrival), some (r.taking s arrival))
      | .error fault => (.error fault, some r)
  | .removed _ =>
    match replica with
    | some _ => (.ok (.removed id), none)
    | none => (.error (.unknownObject id), none)
  | .subscribeFailed _ reason => (.ok (.subscribeFailed id reason), replica)
  | .forwardEvent _ => (.error (.format .strayForward), replica)

def aloneAll (c : Catalog) (config : SequencerConfig) (id : ObjectId) (replica : Option Replica) :
    List Message → List (Except Fault Update) × Option Replica
  | [] => ([], replica)
  | m :: rest =>
    let (result, replica) := alone c config id replica m
    let (results, replica) := aloneAll c config id replica rest
    (result :: results, replica)

open Attempt

variable {f after : Follower} {id : ObjectId} {m : Message}

theorem touches_unchanged (f : Follower) (id : ObjectId) :
    f.Touches id (f.replicas.get? id) f := ⟨rfl, rfl, rfl, fun _ _ => rfl⟩

theorem handle_event {seq : Seq} {body : Octets} {event : Event}
    (decoded : Event.decode f.catalog body = .ok event) :
    ∃ after, (handle (.event seq body)).outcome f = ((alone f.catalog f.config event.object
      (f.replicas.get? event.object) (.event seq body)).1, after) ∧ f.Touches event.object
      (alone f.catalog f.config event.object (f.replicas.get? event.object) (.event seq body)).2
      after := by
  have unchanged := touches_unchanged f event.object
  cases there : f.replicas.get? event.object with
  | none =>
    simp only [alone, decoded]
    rw [there] at unchanged
    exact ⟨f, takeEvent_missing decoded there, unchanged⟩
  | some r =>
    rw [there] at unchanged
    cases accepted : r.sequencer.accept seq (seq, event) with
    | error fault =>
      simp only [alone, decoded, accepted]
      exact ⟨f, takeEvent_refused decoded there accepted, unchanged⟩
    | ok found =>
      obtain ⟨arrival, s⟩ := found
      simp only [alone, decoded, accepted]
      have step := takeEvent_eq decoded there accepted
      cases arrival with
      | duplicate =>
        obtain rfl : s = r.sequencer := Sequencer.eq_of_duplicate accepted
        exact ⟨f, outcome_ok step, unchanged⟩
      | buffered => exact ⟨_, outcome_ok step, touches_put f _ _ f.heard⟩
      | ready events => exact ⟨_, outcome_ok step, touches_put f _ _ _⟩

/-- A follower handles a message as the object it concerns would by itself. -/
theorem handle_alone (concerns : m.Concerns f.catalog id) :
    ∃ after, (handle m).outcome f =
        ((alone f.catalog f.config id (f.replicas.get? id) m).1, after) ∧
      f.Touches id (alone f.catalog f.config id (f.replicas.get? id) m).2 after := by
  have unchanged := touches_unchanged f id
  cases m with
  | snapshot object seq body =>
    obtain rfl := concerns
    cases made : SharedObject.ofSnapshot f.catalog object body with
    | error fault =>
      simp only [alone, made]
      exact ⟨f, materialize_refused made, unchanged⟩
    | ok o =>
      simp only [alone, made]
      exact materialize_ok made
  | event seq body =>
    cases decoded : Event.decode f.catalog body with
    | error fault =>
      simp only [alone, decoded]
      exact ⟨f, takeEvent_undecoded decoded, unchanged⟩
    | ok event =>
      obtain rfl := concerns event decoded
      exact handle_event decoded
  | removed object =>
    obtain rfl := concerns
    cases there : f.replicas.get? object with
    | none =>
      rw [there] at unchanged
      exact ⟨f, drop_missing there, unchanged⟩
    | some r => exact drop_ok there
  | subscribeFailed object reason =>
    obtain rfl := concerns
    exact ⟨f, outcome_ok rfl, unchanged⟩
  | forwardEvent body => exact ⟨f, outcome_error rfl, unchanged⟩

def about (id : ObjectId) (mixed : List (ObjectId × Message)) : List Message :=
  (mixed.filter fun p => p.1 = id).map Prod.snd

/-- The results of handling the messages that were said to be about an object, among those of
handling all of them. -/
def resultsAbout (id : ObjectId) (mixed : List (ObjectId × Message)) (f : Follower) :
    List (Except Fault Update) :=
  (((mixed.map Prod.fst).zip (handleAll (mixed.map Prod.snd) f).1).filter fun p => p.1 = id).map
    Prod.snd

section Cons

variable {object : ObjectId} {rest : List (ObjectId × Message)} {result : Except Fault Update}
  (handled : (handle m).outcome f = (result, after))
include handled

theorem replicas_handleAll_cons :
    (handleAll (((object, m) :: rest).map Prod.snd) f).2 =
      (handleAll (rest.map Prod.snd) after).2 := by
  simp only [List.map_cons, handleAll, handled]

theorem resultsAbout_cons_self :
    resultsAbout id ((id, m) :: rest) f = result :: resultsAbout id rest after := by
  simp [resultsAbout, handleAll, handled]

theorem resultsAbout_cons_ne (different : object ≠ id) :
    resultsAbout id ((object, m) :: rest) f = resultsAbout id rest after := by
  simp [resultsAbout, handleAll, handled, different]

end Cons

theorem handleAll_alone {mixed : List (ObjectId × Message)}
    (concerns : ∀ p ∈ mixed, p.2.Concerns f.catalog p.1) (id : ObjectId) :
    aloneAll f.catalog f.config id (f.replicas.get? id) (about id mixed) =
      (resultsAbout id mixed f, (handleAll (mixed.map Prod.snd) f).2.replicas.get? id) := by
  induction mixed generalizing f with
  | nil => rfl
  | cons p rest ih =>
    obtain ⟨object, m⟩ := p
    have here : m.Concerns f.catalog object := concerns (object, m) (by simp)
    obtain ⟨after, handled, touches⟩ := handle_alone here
    have others : ∀ p ∈ rest, p.2.Concerns after.catalog p.1 := by
      rw [touches.catalog]
      exact fun p mem => concerns p (by simp [mem])
    have step := ih others
    rw [touches.catalog, touches.config] at step
    rw [replicas_handleAll_cons handled]
    -- A step of another object leaves this one where it was, and says nothing about it.
    by_cases same : object = id
    · subst same
      have own : about object ((object, m) :: rest) = m :: about object rest := by simp [about]
      rw [touches.there] at step
      rw [own, resultsAbout_cons_self handled]
      simp only [aloneAll, step]
    · have skipped : about id ((object, m) :: rest) = about id rest := by simp [about, same]
      rw [touches.others id (Ne.symm same)] at step
      rw [skipped, step, resultsAbout_cons_ne handled same]

/-- However the messages about the objects are mixed, as long as those about each come in their
order, a follower ends with the same replicas and says the same about each object. -/
theorem mixed_anyhow (f : Follower) (mixed mixed' : List (ObjectId × Message))
    (concerns : ∀ p ∈ mixed, p.2.Concerns f.catalog p.1)
    (order : ∀ id, (mixed.filter fun p => p.1 = id) = mixed'.filter fun p => p.1 = id)
    (id : ObjectId) :
    (handleAll (mixed.map Prod.snd) f).2.replicas.get? id =
      (handleAll (mixed'.map Prod.snd) f).2.replicas.get? id ∧
    resultsAbout id mixed f = resultsAbout id mixed' f := by
  have concerns' : ∀ p ∈ mixed', p.2.Concerns f.catalog p.1 := by
    intro p mem
    have kept : p ∈ mixed.filter fun q => q.1 = p.1 := by
      rw [order p.1]
      exact List.mem_filter.mpr ⟨mem, by simp⟩
    exact concerns p (List.mem_filter.mp kept).1
  have own : about id mixed = about id mixed' := by rw [about, about, order id]
  have first := handleAll_alone concerns id
  have second := handleAll_alone concerns' id
  rw [own, second] at first
  exact ⟨(congrArg Prod.snd first).symm, (congrArg Prod.fst first).symm⟩

def heardBody : Octets := [0, 0, 0, 7, 0, 0, 6, 0, 1, 97, 0, 0]

def rootBody : Octets := [255, 255, 0, 21] ++ Utf8.encode rootName

/-- Messages about two objects. An event of the first comes too early, and its last one comes when
the object is gone; the snapshot of the second is no snapshot. -/
def mixedOne : List (ObjectId × Message) :=
  [(⟨7⟩, .snapshot ⟨7⟩ ⟨0⟩ rootBody), (⟨9⟩, .snapshot ⟨9⟩ ⟨0⟩ []), (⟨7⟩, .event ⟨2⟩ heardBody),
    (⟨9⟩, .event ⟨1⟩ [8]), (⟨7⟩, .removed ⟨7⟩), (⟨7⟩, .event ⟨1⟩ heardBody)]

def mixedOther : List (ObjectId × Message) :=
  [(⟨9⟩, .snapshot ⟨9⟩ ⟨0⟩ []), (⟨9⟩, .event ⟨1⟩ [8]), (⟨7⟩, .snapshot ⟨7⟩ ⟨0⟩ rootBody),
    (⟨7⟩, .event ⟨2⟩ heardBody), (⟨7⟩, .removed ⟨7⟩), (⟨7⟩, .event ⟨1⟩ heardBody)]

theorem concerns_mixed : ∀ p ∈ mixedOne, p.2.Concerns .initial p.1 := by
  have heard (event : Event) (decoded : Event.decode .initial heardBody = .ok event) :
      event.object = ⟨7⟩ := by
    have read : Event.decode .initial heardBody = .ok (.message ⟨7⟩ "a" []) := rfl
    cases read.symm.trans decoded
    rfl
  intro p mem
  simp only [mixedOne, List.mem_cons, List.not_mem_nil, or_false] at mem
  rcases mem with rfl | rfl | rfl | rfl | rfl | rfl
  · rfl
  · rfl
  · exact heard
  · rintro event ⟨⟩
  · rfl
  · exact heard

theorem mixed_anyhow_two :
    (∀ id, (mixedOne.filter fun p => p.1 = id) = mixedOther.filter fun p => p.1 = id) ∧
    (handleAll (mixedOne.map Prod.snd) (.new .initial .default)).2.replicas.get? ⟨7⟩ =
      (handleAll (mixedOther.map Prod.snd) (.new .initial .default)).2.replicas.get? ⟨7⟩ ∧
    resultsAbout ⟨7⟩ mixedOne (.new .initial .default) =
      resultsAbout ⟨7⟩ mixedOther (.new .initial .default) := by
  have order (id : ObjectId) :
      (mixedOne.filter fun p => p.1 = id) = mixedOther.filter fun p => p.1 = id := by
    by_cases seven : ⟨7⟩ = id
    · subst seven
      rfl
    · simp [mixedOne, mixedOther, List.filter_cons, seven]
  exact ⟨order, mixed_anyhow (.new .initial .default) _ _ concerns_mixed order ⟨7⟩⟩

end Follower

end SharedObjects
