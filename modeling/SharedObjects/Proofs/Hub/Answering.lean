import SharedObjects.Proofs.Hub.Outcomes
import SharedObjects.Proofs.Hub.Subscribable
/-!
What whoever asks to subscribe is sent. One message is offered to the endpoint, a snapshot of the
object or the notice that there is none, unless the object is live and cannot be written: then the
request fails and the endpoint is sent nothing at all.
-/
set_option autoImplicit false

namespace SharedObjects

namespace Hub

open Attempt

variable {τ : Type}

/-- Whatever live object is hosted under the identifier can be written as a whole. -/
def Showable (hub : Hub τ) (id : ObjectId) : Prop :=
  ∀ hosted o, hub.hosted.get? id = some hosted → hub.objectAt? hosted.handle = some o →
    o.stage = .live → ∃ body, o.snapshot hub.catalog = .ok body

theorem showable_iff {hub : Hub τ} {id : ObjectId} {hosted : Hosted} {o : SharedObject}
    (held : hub.hosted.get? id = some hosted) (shared : hub.objectAt? hosted.handle = some o)
    (live : o.stage = .live) :
    hub.Showable id ↔ ∃ body, o.snapshot hub.catalog = .ok body := by
  refine ⟨fun showable => showable hosted o held shared live, fun written => ?_⟩
  intro hosted' o' held' shared' _
  obtain rfl := Option.some.inj (held.symm.trans held')
  obtain rfl := Option.some.inj (shared.symm.trans shared')
  exact written

variable [Carrier τ]

/-- A request to subscribe, having come to a result and a hub, was answered by this message and no
other. -/
structure Answered (hub : Hub (Recorded τ)) (id : ObjectId) (e : EndpointId) (m : Message)
    (done : Except Fault Unit × Hub (Recorded τ)) : Prop where
  offered : done.2.carrier.offers = hub.carrier.offers ++ [(e, m.wire)]
  legible : m.Legible
  answer : (∃ hosted o body, hub.Shows id hosted o body ∧ m = .snapshot id hosted.last body) ∨
    ∃ reason, m = .subscribeFailed id reason
  accepted_iff : done.1 = .ok () ↔
    m.kind = .snapshot ∧ (Carrier.send e m.wire hub.carrier).1 = .ok ()
  noticed : ∀ fault, done.1 = .error fault →
    m.kind = .subscribeFailed ∨ m.kind = .snapshot ∧ ∃ cause, fault = .delivery cause

section Offering

variable {hub : Hub (Recorded τ)} {id : ObjectId} {e : EndpointId} {hosted : Hosted}
  {o : SharedObject} {body : Octets} {carrier : Recorded τ}

theorem offers_of_send {answer : Except DeliveryFault Unit} {message : Octets} {r : Recorded τ}
    (sent : Carrier.send e message r = (answer, carrier)) :
    carrier.offers = r.offers ++ [(e, message)] :=
  congrArg (fun outcome => outcome.2.offers) sent.symm

theorem answered_missing (missing : ∀ hosted o, hub.hosted.get? id = some hosted →
    hub.objectAt? hosted.handle = some o → o.stage ≠ .live) :
    hub.Answered id e (.refusal id) ((subscribe id e).outcome hub) := by
  rw [outcome_error (subscribe_missing e missing)]
  exact {
    offered := offers_of_send rfl
    legible := Message.decode_wire trivial (Message.fits_refusal id)
    answer := .inr ⟨_, rfl⟩
    accepted_iff := by simp [Message.refusal, Message.kind]
    noticed := fun _ _ => .inl rfl }

theorem Shows.answered (shows : hub.Shows id hosted o body) (e : EndpointId) :
    hub.Answered id e (.snapshot id hosted.last body) ((Hub.subscribe id e).outcome hub) := by
  cases sent : Carrier.send e (Message.snapshot id hosted.last body).wire hub.carrier with
  | mk answer carrier =>
    cases answer with
    | ok _ =>
      rw [outcome_ok (shows.subscribe sent)]
      exact {
        offered := offers_of_send sent
        legible := shows.legible
        answer := .inl ⟨hosted, o, body, shows, rfl⟩
        accepted_iff := by simp [Message.kind, sent]
        noticed := nofun }
    | error fault =>
      rw [outcome_error (subscribe_refused shows sent)]
      exact {
        offered := offers_of_send sent
        legible := shows.legible
        answer := .inl ⟨hosted, o, body, shows, rfl⟩
        accepted_iff := by simp [sent]
        noticed := by
          rintro _ ⟨⟩
          exact .inr ⟨rfl, fault, rfl⟩ }

theorem not_answered (held : hub.hosted.get? id = some hosted)
    (shared : hub.objectAt? hosted.handle = some o) (live : o.stage = .live) {fault : Fault}
    (unwritten : o.snapshot hub.catalog = .error fault) (m : Message) :
    ¬hub.Answered id e m ((subscribe id e).outcome hub) := by
  intro answered
  have offered := answered.offered
  rw [outcome_error (subscribe_unwritten held shared live unwritten e)] at offered
  simp at offered

end Offering

/-- A request to subscribe is answered by exactly one message exactly if the object under the
identifier, where there is a live one, can be written. If it cannot, the request fails for that and
the hub is as before, so that no one was sent anything. -/
theorem answered_iff_showable (hub : Hub (Recorded τ)) (id : ObjectId) (e : EndpointId) :
    ((∃ m, hub.Answered id e m ((subscribe id e).outcome hub)) ↔ hub.Showable id) ∧
    (¬hub.Showable id → ∃ cause, subscribe id e hub = .error (.encoding cause) hub) := by
  by_cases live : ∃ hosted o, hub.hosted.get? id = some hosted ∧
    hub.objectAt? hosted.handle = some o ∧ o.stage = .live
  case neg =>
    have missing : ∀ hosted o, hub.hosted.get? id = some hosted →
        hub.objectAt? hosted.handle = some o → o.stage ≠ .live :=
      fun hosted o held shared is => live ⟨hosted, o, held, shared, is⟩
    have showable : hub.Showable id := fun hosted o held shared is =>
      absurd is (missing hosted o held shared)
    exact ⟨iff_of_true ⟨_, answered_missing missing⟩ showable,
      fun unshowable => absurd showable unshowable⟩
  obtain ⟨hosted, o, held, shared, live⟩ := live
  rw [showable_iff held shared live]
  cases written : o.snapshot hub.catalog with
  | ok body =>
    have shows : hub.Shows id hosted o body := ⟨held, shared, live, written⟩
    exact ⟨iff_of_true ⟨_, shows.answered e⟩ ⟨body, rfl⟩,
      fun unshowable => absurd ⟨body, rfl⟩ unshowable⟩
  | error fault =>
    obtain ⟨cause, rfl⟩ := SharedObject.snapshot_error written
    have silent : ¬∃ m, hub.Answered id e m ((subscribe id e).outcome hub) :=
      fun ⟨m, answered⟩ => not_answered held shared live written m answered
    exact ⟨iff_of_false silent nofun,
      fun _ => ⟨cause, subscribe_unwritten held shared live written e⟩⟩

end Hub

theorem unwritten_logOf {v : Value} (streamable : v.Streamable logCatalog)
    (plain : v.typeNames = []) (deep : maxNesting ≤ v.nesting) :
    ∃ cause, (logOf v).snapshot logCatalog = .error (.encoding cause) := by
  cases written : (logOf v).snapshot logCatalog with
  | ok body =>
    have limits := (sound_logOf streamable).snapshot_iff.mp ⟨body, written⟩
    have shallow := (withinLimits_logOf_iff plain).mp limits
    omega
  | error fault =>
    obtain ⟨cause, rfl⟩ := SharedObject.snapshot_error written
    exact ⟨cause, rfl⟩

/-- A log is made and hosted whose entry can be written alone but not in its place. Whoever asks to
subscribe to it is refused and is sent nothing. -/
theorem Hub.subscribe_unanswered :
    Catalog.initial.register ((Schema.distributed "Log").withField "entries" .list) =
      .ok (logCatalog, logType) ∧
    ∃ (o : SharedObject) (hub : Hub (Recorded Tape)),
      SharedObject.make logCatalog "Log" [(0, .list [.tower 64])] = .ok o ∧
      Hub.host ⟨0⟩ o (.new logCatalog ⟨.blank, []⟩ .testing) = .ok ⟨1⟩ hub ∧
      ∃ cause, Hub.subscribe ⟨1⟩ ⟨7⟩ hub = .error (.encoding cause) hub ∧
        hub.carrier.offers = [] := by
  refine ⟨register_log, _, _, make_logOf (.tower 64), rfl, ?_⟩
  obtain ⟨cause, unwritten⟩ := unwritten_logOf (Value.streamable_tower 64)
    (Value.typeNames_tower 64) (by rw [Value.nesting_tower]; decide)
  exact ⟨cause, Hub.subscribe_unwritten rfl rfl rfl unwritten ⟨7⟩, rfl⟩

end SharedObjects
