import SharedObjects.Proofs.Hub.Identifiers
import SharedObjects.Proofs.Hub.Outcomes
/-!
The order a hub keeps. A hosted object is live and bears the identifier it is hosted under, no
endpoint subscribes to it twice, and every identifier given out so far is in use or waits to be used
again, never both. It is shown with what an operation makes of one entry and of one object, which is
all that later results need to know of the single outcomes.
-/
set_option autoImplicit false

namespace SharedObjects

def publication? : Except Fault HubAnswer → Option ObjectId
  | .ok (.published report) => some report.object
  | _ => none

def removal? : Except Fault HubAnswer → Option ObjectId
  | .ok (.unregistered report) => some report.object
  | _ => none

/-- The operation makes an endpoint a subscriber of an object, or finds that it is one. -/
def HubOperation.Joins (op : HubOperation) (result : Except Fault HubAnswer) (id : ObjectId)
    (e : EndpointId) : Prop :=
  op = .subscribe id e ∧ result = .ok .subscribed

namespace Hub

/-- A hosted object is live and bears its identifier; every subscriber is there once, and active. -/
structure Serves {τ : Type} (hub : Hub τ) (id : ObjectId) (hosted : Hosted) : Prop where
  shared : ∃ o, hub.objectAt? hosted.handle = some o ∧ o.id = id ∧ o.stage = .live
  tidy : hosted.subscribers.Tidy

structure InOrder {τ : Type} (hub : Hub τ) : Prop where
  serves : ∀ id hosted, hub.hosted.get? id = some hosted → hub.Serves id hosted
  accounts : hub.identifiers.Accounts (max hub.config.firstObjectId 1) hub.hosted.keys

/-- What an operation makes of the entry under one identifier. -/
inductive Fate (op : HubOperation) (result : Except Fault HubAnswer) (id : ObjectId) :
    Option Hosted → Option Hosted → Prop
  | absent (unpublished : publication? result ≠ some id) : Fate op result id none none
  | arrives {now : Instant} {h : Handle} (asked : op = .register now h)
    (given : result = .ok (.registered id)) : Fate op result id none (some ⟨h, .none, .zero⟩)
  | stays {hosted now : Hosted} (kept : removal? result ≠ some id)
    (handle : now.handle = hosted.handle)
    (last : now.last = if publication? result = some id then hosted.last.next else hosted.last)
    (tidy : hosted.subscribers.Tidy → now.subscribers.Tidy)
    (members : ∀ e, e ∈ now.subscribers.endpoints ↔
      op.Joins result id e ∨ (e ∈ hosted.subscribers.endpoints ∧ ¬op.Drops id e)) :
    Fate op result id (some hosted) (some now)
  | leaves {now : Instant} {hosted : Hosted} (asked : op = .unregister now id)
    (removed : removal? result = some id) : Fate op result id (some hosted) none

/-- What an operation makes of one shared object. -/
inductive Ages {τ : Type} (hub : Hub τ) (op : HubOperation) (result : Except Fault HubAnswer)
    (h : Handle) (o : SharedObject) : SharedObject → Prop
  | stays {now : SharedObject} (named : now.id = o.id) (stage : now.stage = o.stage) :
    Ages hub op result h o now
  | starts {now : Instant} {id : ObjectId} (asked : op = .register now h)
    (given : result = .ok (.registered id)) (unregistered : o.stage = .unregistered) :
    Ages hub op result h o { o with id := id, stage := .live }
  | ends {id : ObjectId} {hosted : Hosted} (held : hub.hosted.get? id = some hosted)
    (handle : hosted.handle = h) (removed : removal? result = some id) (live : o.stage = .live) :
    Ages hub op result h o { o with stage := .removed }

namespace Fate

variable {op : HubOperation} {result : Except Fault HubAnswer} {id : ObjectId}

theorem idle (unpublished : publication? result ≠ some id) (kept : removal? result ≠ some id)
    (unjoined : ∀ e, ¬op.Joins result id e) (undropped : ∀ e, ¬op.Drops id e)
    (entry : Option Hosted) : Fate op result id entry entry := by
  cases entry with
  | none => exact .absent unpublished
  | some hosted =>
    exact .stays kept rfl (by simp [unpublished]) (fun tidy => tidy)
      (by simp [unjoined, undropped])

theorem of_error {fault : Fault} (undropped : ∀ e, ¬op.Drops id e) (entry : Option Hosted) :
    Fate op (.error fault) id entry entry :=
  .idle (by simp [publication?]) (by simp [removal?]) (by simp [HubOperation.Joins]) undropped entry

end Fate

section Orderly

variable {τ : Type} {hub after : Hub τ} {op : HubOperation}
  {result : Except Fault HubAnswer} {sent : List (EndpointId × Message)} {id : ObjectId}
  {hosted : Hosted} {o : SharedObject}

theorem Fate.of_put {now : Hosted} (held : hub.hosted.get? id = some hosted)
    (here : Fate op result id (some hosted) (some now))
    (elsewhere : ∀ other, other ≠ id → ∀ entry, Fate op result other entry entry)
    (other : ObjectId) :
    Fate op result other (hub.hosted.get? other) ((hub.hosted.put id now).get? other) := by
  by_cases same : other = id
  · subst same
    rw [held, Entries.get?_put_self]
    exact here
  · rw [Entries.get?_put_ne same]
    exact elsewhere other same _

theorem Fate.of_event {report : Report} (held : hub.hosted.get? report.object = some hosted)
    (unjoined : ∀ other e, ¬op.Joins (.ok (.published report)) other e)
    (undropped : ∀ other e, ¬op.Drops other e) (other : ObjectId) :
    Fate op (.ok (.published report)) other (hub.hosted.get? other)
      ((hub.hosted.put report.object { hosted with last := hosted.last.next }).get? other) := by
  refine .of_put held ?_ (fun other different entry => ?_) other
  · exact .stays (by simp [removal?]) rfl (by simp [publication?]) (fun tidy => tidy)
      (by simp [unjoined, undropped])
  · have unpublished : publication? (.ok (.published report)) ≠ some other := fun same =>
      different (Option.some.inj same).symm
    exact .idle unpublished nofun (unjoined other) (undropped other) entry

theorem getElem?_set_cases {α : Type} {as : List α} {a : α} {n : Nat} (at_ : as[n]? = some a)
    (m : Nat) (b : α) : (n = m ∧ (as.set m b)[n]? = some b) ∨ (as.set m b)[n]? = some a := by
  have within := (List.getElem?_eq_some_iff.mp at_).1
  by_cases same : n = m
  · exact .inl ⟨same, by simp [← same, within]⟩
  · exact .inr ((List.getElem?_set_ne (Ne.symm same)).trans at_)

theorem Ages.self (o : SharedObject) {h : Handle} : Ages hub op result h o o := .stays rfl rfl

theorem InOrder.eq_of_handle (order : hub.InOrder) (held : hub.hosted.get? id = some hosted)
    {other : ObjectId} {hosted' : Hosted} (held' : hub.hosted.get? other = some hosted')
    (same : hosted'.handle = hosted.handle) : other = id := by
  obtain ⟨o, shared, named, -⟩ := (order.serves id hosted held).shared
  obtain ⟨p, shared', named', -⟩ := (order.serves other hosted' held').shared
  rw [same] at shared'
  obtain rfl : o = p := Option.some.inj (shared.symm.trans shared')
  exact named'.symm.trans named

theorem inOrder_new (c : Catalog) (carrier : τ) (config : HubConfig) :
    (Hub.new c carrier config).InOrder where
  serves := nofun
  accounts := Identifiers.accounts_ofConfig config

theorem InOrder.carry (order : hub.InOrder) (carrier : τ) :
    InOrder { hub with carrier := carrier } where
  serves := fun id hosted held => ⟨(order.serves id hosted held).shared,
    (order.serves id hosted held).tidy⟩
  accounts := order.accounts

variable [Carrier τ]

theorem Outcome.fate (outcome : Outcome hub op result sent after) (order : hub.InOrder)
    (id : ObjectId) : Fate op result id (hub.hosted.get? id) (after.hosted.get? id) := by
  cases outcome with
  | failed fault keeps => exact .of_error (keeps id) _
  | placed o =>
    refine .idle ?_ ?_ ?_ ?_ _ <;>
      simp [publication?, removal?, HubOperation.Joins, HubOperation.Drops]
  | @registered now h given o identifiers shared unregistered allocated =>
    by_cases same : id = given
    · subst same
      obtain ⟨unused, -⟩ := order.accounts.allocate allocated
      rw [Entries.get?_eq_none unused, registering, Entries.get?_put_self]
      exact .arrives rfl rfl
    · rw [registering, Entries.get?_put_ne same]
      refine .idle ?_ ?_ ?_ ?_ _ <;>
        simp [publication?, removal?, HubOperation.Joins, HubOperation.Drops]
  | missing => exact .of_error (by simp [HubOperation.Drops]) _
  | refused => exact .of_error (by simp [HubOperation.Drops]) _
  | @subscribed asked e hosted o body carrier shows taken =>
    refine .of_put shows.held ?_ (fun other different entry => ?_) id
    · refine .stays (by simp [removal?]) rfl rfl
        (fun tidy => tidy.add e) fun other => ?_
      rw [Subscribers.mem_endpoints_add]
      simp [HubOperation.Joins, HubOperation.Drops, or_comm, eq_comm]
    · refine .idle ?_ ?_ ?_ ?_ _ <;>
        simp [publication?, removal?, HubOperation.Joins, HubOperation.Drops, different.symm]
  | @stranger asked e missing =>
    by_cases same : id = asked
    · subst same
      rw [missing]
      exact .absent (by simp [publication?])
    · refine .idle ?_ ?_ ?_ ?_ _ <;>
        simp [publication?, removal?, HubOperation.Joins, HubOperation.Drops, Ne.symm same]
  | @unsubscribed asked e hosted held =>
    refine .of_put held ?_ (fun other different entry => ?_) id
    · refine .stays (by simp [removal?]) rfl rfl
        (fun tidy => tidy.remove e) fun other => ?_
      rw [Subscribers.mem_endpoints_remove]
      simp [HubOperation.Joins, HubOperation.Drops, eq_comm]
    · refine .idle ?_ ?_ ?_ ?_ _ <;>
        simp [publication?, removal?, HubOperation.Joins, HubOperation.Drops, different.symm]
  | published held =>
    exact .of_event held (by simp [HubOperation.Joins]) (by simp [HubOperation.Drops]) id
  | posted takes =>
    exact .of_event takes.held (by simp [HubOperation.Joins]) (by simp [HubOperation.Drops]) id
  | forwarded _ _ posts =>
    cases posts with
    | failed fault => exact .of_error (by simp [HubOperation.Drops]) _
    | posted takes =>
      exact .of_event takes.held (by simp [HubOperation.Joins]) (by simp [HubOperation.Drops]) id
  | @unregistered now asked hosted o held shared live =>
    by_cases same : id = asked
    · subst same
      rw [held, leaving, Entries.get?_erase, if_pos rfl]
      exact .leaves rfl rfl
    · rw [leaving, Entries.get?_erase, if_neg same]
      refine .idle ?_ ?_ ?_ ?_ _ <;>
        simp [publication?, removal?, report, HubOperation.Joins, HubOperation.Drops, Ne.symm same]
  | disconnected e =>
    rw [without, get?_hosted_without]
    cases hub.hosted.get? id with
    | none => exact .absent (by simp [publication?])
    | some hosted =>
      refine .stays (by simp [removal?]) rfl rfl
        (fun tidy => tidy.remove e) fun other => ?_
      rw [Subscribers.mem_endpoints_remove]
      simp [HubOperation.Joins, HubOperation.Drops, eq_comm]

theorem Outcome.origin (outcome : Outcome hub op result sent after) (order : hub.InOrder)
    {now : Hosted} (held : after.hosted.get? id = some now) :
    ∃ before, hub.hosted.get? id = before ∧ Fate op result id before (some now) :=
  ⟨_, rfl, held ▸ outcome.fate order id⟩

theorem Outcome.future (outcome : Outcome hub op result sent after) (order : hub.InOrder)
    (held : hub.hosted.get? id = some hosted) :
    ∃ now, after.hosted.get? id = now ∧ Fate op result id (some hosted) now :=
  ⟨_, rfl, held ▸ outcome.fate order id⟩

theorem Takes.ages {event : Event} {next : SharedObject} {body : Octets}
    (takes : hub.Takes id event hosted o next body) {h : Handle} {found : SharedObject}
    (shared : hub.objectAt? h = some found) (tally : HubTally) :
    ∃ now, (hub.published id hosted next event body tally).objectAt? h = some now ∧
      Ages hub op result h found now := by
  rcases getElem?_set_cases shared hosted.handle.place next with ⟨same, there⟩ | there
  · obtain rfl : o = found := by
      have here : hub.objectAt? h = some o := (congrArg (hub.objects[·]?) same).trans takes.shared
      exact Option.some.inj (here.symm.trans shared)
    refine ⟨next, there, .stays ?_ (SharedObject.stage_of_apply takes.applied)⟩
    rw [SharedObject.apply_eq takes.applied]
  · exact ⟨found, there, .self found⟩

theorem Outcome.ages (outcome : Outcome hub op result sent after) {h : Handle}
    (shared : hub.objectAt? h = some o) :
    ∃ now, after.objectAt? h = some now ∧ Ages hub op result h o now := by
  have within := (List.getElem?_eq_some_iff.mp shared).1
  cases outcome with
  | placed => exact ⟨o, (List.getElem?_append_left within).trans shared, .self o⟩
  | @registered now asked given placed identifiers placed_at unregistered allocated =>
    rcases getElem?_set_cases shared asked.place { placed with id := given, stage := .live } with
      ⟨same, there⟩ | there
    · obtain rfl : h = asked := Handle.mk.injEq _ _ ▸ same
      obtain rfl : placed = o := Option.some.inj (placed_at.symm.trans shared)
      exact ⟨_, there, .starts rfl rfl unregistered⟩
    · exact ⟨o, there, .self o⟩
  | posted takes => exact takes.ages shared _
  | forwarded _ _ posts =>
    cases posts with
    | failed => exact ⟨o, shared, .self o⟩
    | posted takes => exact takes.ages shared _
  | @unregistered now asked hosted leaving held shared' live =>
    rcases getElem?_set_cases shared hosted.handle.place { leaving with stage := .removed } with
      ⟨same, there⟩ | there
    · obtain rfl : h = hosted.handle := Handle.mk.injEq _ _ ▸ same
      obtain rfl : leaving = o := Option.some.inj (shared'.symm.trans shared)
      exact ⟨_, there, .ends held rfl rfl live⟩
    · exact ⟨o, there, .self o⟩
  | _ => exact ⟨o, shared, .self o⟩

theorem Outcome.registers {now : Instant} {h : Handle}
    (outcome : Outcome hub (.register now h) (.ok (.registered id)) sent after) :
    ∃ o, hub.objectAt? h = some o ∧ o.stage = .unregistered ∧
      after.objectAt? h = some { o with id := id, stage := .live } := by
  cases outcome with
  | @registered _ _ _ o _ shared unregistered _ =>
    exact ⟨o, shared, unregistered, objectAt?_set shared _⟩

theorem Outcome.unregisters (outcome : Outcome hub op result sent after)
    (removed : removal? result = some id) :
    ∃ (hosted : Hosted) (o : SharedObject), hub.hosted.get? id = some hosted ∧
      after.objectAt? hosted.handle = some { o with stage := .removed } := by
  cases outcome with
  | @unregistered now asked hosted o held shared live =>
    obtain rfl : asked = id := Option.some.inj removed
    exact ⟨hosted, o, held, objectAt?_set shared _⟩
  | forwarded _ _ posts =>
    cases posts with
    | failed => cases removed
    | posted => cases removed
  | _ => cases removed

theorem Outcome.accounts (outcome : Outcome hub op result sent after)
    (accounts : hub.identifiers.Accounts (max hub.config.firstObjectId 1) hub.hosted.keys) :
    after.identifiers.Accounts (max after.config.firstObjectId 1) after.hosted.keys := by
  have kept {other : ObjectId} {entry : Hosted} (held : hub.hosted.get? other = some entry)
      (now : Hosted) : hub.identifiers.Accounts (max hub.config.firstObjectId 1)
        (hub.hosted.put other now).keys := by
    rwa [Entries.keys_put_of_get? held]
  cases outcome with
  | @registered now h id o identifiers _ _ allocated =>
    obtain ⟨unused, next⟩ := accounts.allocate allocated
    have absent : hub.hosted.contains id = false := by
      simp [Entries.contains, Entries.get?_eq_none unused]
    rw [registering, Entries.keys_put, absent]
    exact next
  | subscribed shows => exact kept shows.held _
  | unsubscribed _ held => exact kept held _
  | published held => exact kept held _
  | posted takes => exact kept takes.held _
  | forwarded _ _ posts =>
    cases posts with
    | failed => exact accounts
    | posted takes => exact kept takes.held _
  | unregistered held =>
    rw [leaving, Entries.keys_erase]
    exact accounts.retire (Entries.mem_keys_of_get? held) _
  | disconnected e =>
    have keys : (hub.without e).hosted.keys = hub.hosted.keys := by
      simp [without, Entries.keys]
    rw [keys]
    exact accounts
  | _ => exact accounts

theorem Outcome.inOrder (outcome : Outcome hub op result sent after) (order : hub.InOrder) :
    after.InOrder where
  accounts := outcome.accounts order.accounts
  serves := fun id now held => by
    obtain ⟨before, entry, fate⟩ := outcome.origin order held
    cases fate with
    | arrives asked given =>
      subst asked given
      obtain ⟨o, -, -, live⟩ := outcome.registers
      exact ⟨⟨_, live, rfl, rfl⟩, Subscribers.tidy_none⟩
    | @stays hosted now kept handle last tidy members =>
      obtain ⟨⟨o, shared, named, live⟩, before⟩ := order.serves id hosted entry
      obtain ⟨later, there, ages⟩ := outcome.ages shared
      refine ⟨⟨later, handle ▸ there, ?_⟩, tidy before⟩
      cases ages with
      | stays same stage => exact ⟨same.trans named, stage.trans live⟩
      | starts _ _ unregistered => simp [live] at unregistered
      | ends held' same removed =>
        obtain rfl := order.eq_of_handle entry held' same
        exact absurd removed kept

end Orderly

end Hub

end SharedObjects
