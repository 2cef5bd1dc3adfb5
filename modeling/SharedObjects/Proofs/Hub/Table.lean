import SharedObjects.Proofs.Hub.Order
/-!
The table of hosted objects over a whole run. Every call hands one identifier out, takes one back,
or does neither. So those that were handed out and those that were taken back can be read off the
answers, and with them what waits to be used again and how far the count has come.
-/
set_option autoImplicit false

namespace SharedObjects

inductive Call
  | ask (op : HubOperation)
  | host (now : Instant) (o : SharedObject)

structure Reply where
  call : Call
  result : Except Fault HubAnswer

namespace Reply

def granted? (r : Reply) : Option (ObjectId × Instant) :=
  match r.call, r.result with
  | .ask (.register now _), .ok (.registered id) => some (id, now)
  | .host now _, .ok (.registered id) => some (id, now)
  | _, _ => none

def released? (r : Reply) : Option (ObjectId × Instant) :=
  match r.call, r.result with
  | .ask (.unregister now _), .ok (.unregistered report) => some (report.object, now)
  | _, _ => none

end Reply

def granted (replies : List Reply) : List (ObjectId × Instant) := replies.filterMap Reply.granted?

def released (replies : List Reply) : List (ObjectId × Instant) :=
  replies.filterMap Reply.released?

variable {τ : Type}

namespace Hub

/-- The identifier to be handed out next: the one that has waited longest, if its grace period is
over, and else the next fresh one, of which the greatest number is none. -/
def available? (hub : Hub τ) (now : Instant) : Option ObjectId :=
  ((hub.identifiers.retired.head?.filter fun r => hub.config.grace ≤ now.since r.2).map
      Prod.fst).or
    (if hub.identifiers.next = Identifiers.last then none else some ⟨hub.identifiers.next⟩)

/-- The action hosts an object under the identifier to be handed out; where there is none it says
so, and has changed nothing. -/
def Grants (hub : Hub τ) (now : Instant) (action : HubAction τ ObjectId) : Prop :=
  match hub.available? now with
  | some id => ∃ after, action hub = .ok id after
  | none => action hub = .error (.encoding .identifiersExhausted) hub

/-- The table of a hub, and what the answers to all calls so far say of its identifiers. -/
structure Ledger (config : HubConfig) (replies : List Reply) (hub : Hub τ) : Prop where
  config_eq : hub.config = config
  /-- What is hosted is live and bears its identifier, which is not the name of no object; no
  endpoint subscribes to it twice. -/
  serves : ∀ id hosted, hub.hosted.get? id = some hosted → id ≠ .none ∧ hub.Serves id hosted
  /-- No object is hosted under two identifiers. -/
  alone : ∀ id hosted other hosted', hub.hosted.get? id = some hosted →
    hub.hosted.get? other = some hosted' → hosted'.handle = hosted.handle → other = id
  /-- Those in use and those that wait are, each once, all that have been counted up. -/
  distinct : (hub.hosted.keys ++ hub.identifiers.waiting).Nodup
  given_iff : ∀ id, id ∈ hub.hosted.keys ++ hub.identifiers.waiting ↔
    max config.firstObjectId 1 ≤ id.number ∧ id.number < hub.identifiers.next
  /-- The count goes up by one for every identifier that is handed out for the first time. -/
  counted : (max config.firstObjectId 1).toNat + (granted replies).length =
    hub.identifiers.next.toNat + (Identifiers.again [] (granted replies)).length
  /-- Identifiers are used again in the order in which they were taken back, and each when it has
  waited out the grace period; those that wait have not been used again. -/
  queued : ∃ served, released replies = served ++ hub.identifiers.retired ∧
    List.Forall₂ (Identifiers.WaitedOut config.grace) served
      (Identifiers.again [] (granted replies))
  /-- If the grace period never ends, none is handed out twice. -/
  once : (∀ r ∈ released replies, ∀ g ∈ granted replies, g.2.since r.2 < config.grace) →
    ((granted replies).map Prod.fst).Nodup
  /-- Without a grace period those that wait come before any fresh one. -/
  at_once : config.grace = 0 → ∀ now id waits, hub.identifiers.waiting = id :: waits →
    hub.available? now = some id
  /-- An object can be registered as long as an identifier is left, and is left alone otherwise. -/
  registers : ∀ now h o, hub.objectAt? h = some o → o.stage = .unregistered →
    hub.Grants now (register now h)
  hosts : ∀ now (o : SharedObject), o.stage = .unregistered → hub.Grants now (host now o)

inductive Deals (hub : Hub τ) (reply : Reply) (after : Hub τ) : Prop
  | grants {id : ObjectId} {now : Instant} (granted : reply.granted? = some (id, now))
    (kept : reply.released? = none)
    (allocated : hub.identifiers.allocate now = some (id, after.identifiers))
  | releases {id : ObjectId} {now : Instant} (ungranted : reply.granted? = none)
    (released : reply.released? = some (id, now))
    (retired : after.identifiers = hub.identifiers.retire now id)
  | neither (ungranted : reply.granted? = none) (kept : reply.released? = none)
    (same : after.identifiers = hub.identifiers)

structure Upholds (hub : Hub τ) (reply : Reply) (after : Hub τ) : Prop where
  order : after.InOrder
  config : after.config = hub.config
  deals : Deals hub reply after

theorem granted_cons (reply : Reply) (replies : List Reply) :
    granted (reply :: replies) = reply.granted?.toList ++ granted replies := by
  cases given : reply.granted? <;> simp [granted, given]

theorem released_cons (reply : Reply) (replies : List Reply) :
    released (reply :: replies) = reply.released?.toList ++ released replies := by
  cases taken : reply.released? <;> simp [released, taken]

theorem Deals.leads {hub after : Hub τ} {reply : Reply} {seen : List ObjectId}
    {replies : List Reply} {final : Identifiers} (deals : Deals hub reply after)
    (order : hub.InOrder) (counts : hub.identifiers.Seen (max hub.config.firstObjectId 1) seen)
    (rest : ∀ seen, after.identifiers.Seen (max hub.config.firstObjectId 1) seen →
      after.identifiers.Leads seen (granted replies) (released replies) final) :
    hub.identifiers.Leads seen (granted (reply :: replies)) (released (reply :: replies))
      final := by
  rw [granted_cons, released_cons]
  cases deals with
  | grants given kept allocated =>
    rw [given, kept]
    exact .allocate order.accounts counts allocated rest
  | releases ungranted removed retired =>
    rw [ungranted, removed]
    rw [retired] at rest
    exact .retire (rest seen counts)
  | neither ungranted kept same =>
    rw [ungranted, kept]
    rw [same] at rest
    exact rest seen counts

section Granting

variable {hub : Hub τ} (grace : hub.identifiers.grace = hub.config.grace)

include grace

theorem allocate_eq (now : Instant) :
    (hub.identifiers.allocate now).map Prod.fst = hub.available? now := by
  unfold available? Identifiers.allocate Identifiers.fresh
  rw [grace]
  cases hub.identifiers.retired with
  | nil => by_cases full : hub.identifiers.next = Identifiers.last <;> simp [full]
  | cons oldest rest =>
    by_cases waited : hub.config.grace ≤ now.since oldest.2
    · simp only [List.head?_cons, Option.filter_some, waited, decide_true, if_true, Option.map_some,
        Option.some_or]
    · simp only [List.head?_cons, Option.filter_some, waited, decide_false, if_false,
        Bool.false_eq_true, Option.map_none, Option.none_or]
      by_cases full : hub.identifiers.next = Identifiers.last <;> simp [full]

theorem grants_of {now : Instant} {action : HubAction τ ObjectId}
    (succeeds : ∀ id identifiers, hub.identifiers.allocate now = some (id, identifiers) →
      ∃ after, action hub = .ok id after)
    (exhausted : hub.identifiers.allocate now = none →
      action hub = .error (.encoding .identifiersExhausted) hub) : hub.Grants now action := by
  unfold Grants
  rw [← allocate_eq grace now]
  cases allocated : hub.identifiers.allocate now with
  | none => exact exhausted allocated
  | some found => exact succeeds found.1 found.2 allocated

end Granting

theorem available?_at_once {hub : Hub τ} (none : hub.config.grace = 0) (now : Instant)
    {id : ObjectId} {waits : List ObjectId} (waiting : hub.identifiers.waiting = id :: waits) :
    hub.available? now = some id := by
  obtain ⟨r, rest, retired, rfl, -⟩ := List.map_eq_cons_iff.mp waiting
  simp [available?, retired, none]

section Answering

variable [Carrier τ]

def answer : Call → HubAction τ HubAnswer
  | .ask op => perform op
  | .host now o => do return .registered (← host now o)

/-- Answers calls in turn; after each the carrier may change in any way. -/
def answerAll (hub : Hub τ) : List (Call × (τ → τ)) → List Reply × Hub τ
  | [] => ([], hub)
  | (call, meanwhile) :: rest =>
    let (result, after) := (answer call).outcome hub
    let (replies, final) := answerAll { after with carrier := meanwhile after.carrier } rest
    (⟨call, result⟩ :: replies, final)

variable {hub after : Hub τ} {op : HubOperation} {result : Except Fault HubAnswer}
  {sent : List (EndpointId × Message)}

theorem Outcome.config_eq (outcome : Outcome hub op result sent after) :
    after.config = hub.config := by
  induction outcome with
  | forwarded _ _ _ ih => exact ih
  | _ => rfl

theorem Outcome.deals (outcome : Outcome hub op result sent after) :
    Deals hub ⟨.ask op, result⟩ after := by
  cases outcome with
  | failed => exact .neither (by simp [Reply.granted?]) (by simp [Reply.released?]) rfl
  | registered _ _ allocated => exact .grants rfl rfl allocated
  | unregistered => exact .releases rfl rfl rfl
  | forwarded _ _ posts => cases posts <;> exact .neither rfl rfl rfl
  | _ => exact .neither rfl rfl rfl

theorem Outcome.upholds (outcome : Outcome hub op result sent after) (order : hub.InOrder) :
    Upholds hub ⟨.ask op, result⟩ after :=
  ⟨outcome.inOrder order, outcome.config_eq, outcome.deals⟩

def UpheldBy (hub : Hub τ) (call : Call) : Prop :=
  Upholds hub ⟨call, ((answer call).outcome hub).1⟩ ((answer call).outcome hub).2

theorem upheldBy_host (order : hub.InOrder) (now : Instant) (o : SharedObject) :
    hub.UpheldBy (.host now o) := by
  rcases register_cases now ⟨hub.objects.length⟩ { hub with objects := hub.objects ++ [o] } with
    ⟨fault, refused⟩ | ⟨placed, id, identifiers, shared, unregistered, allocated⟩
  · have hosted : host now o hub = .error fault hub := by
      rw [host, Attempt.bind_ok (place_eq o hub), refused]
    rw [UpheldBy, answer, outcome_fault hosted]
    exact ⟨order, rfl, .neither rfl rfl rfl⟩
  · have hosted : host now o hub = .ok id
        (registering { hub with objects := hub.objects ++ [o] } ⟨hub.objects.length⟩ id placed
          identifiers) := by
      rw [host, Attempt.bind_ok (place_eq o hub), register_ok shared unregistered allocated]
    rw [UpheldBy, answer, outcome_answer hosted]
    have shares := (@Outcome.placed τ _ hub o).inOrder order
    have upholds := (Outcome.registered shared unregistered allocated).upholds shares
    exact ⟨upholds.order, upholds.config, .grants rfl rfl allocated⟩

theorem upheldBy (order : hub.InOrder) (call : Call) : hub.UpheldBy call := by
  cases call with
  | ask op =>
    obtain ⟨sent, outcome⟩ := comes op hub
    exact outcome.upholds order
  | host now o => exact upheldBy_host order now o

theorem answerAll_upholds (order : hub.InOrder) (calls : List (Call × (τ → τ))) :
    (hub.answerAll calls).2.InOrder ∧ (hub.answerAll calls).2.config = hub.config := by
  induction calls generalizing hub with
  | nil => exact ⟨order, rfl⟩
  | cons first rest ih =>
    obtain ⟨call, meanwhile⟩ := first
    obtain ⟨next, config, -⟩ := upheldBy order call
    obtain ⟨final, same⟩ := ih (next.carry (meanwhile _))
    exact ⟨final, same.trans config⟩

theorem answerAll_leads (order : hub.InOrder) {seen : List ObjectId}
    (counts : hub.identifiers.Seen (max hub.config.firstObjectId 1) seen)
    (calls : List (Call × (τ → τ))) :
    hub.identifiers.Leads seen (granted (hub.answerAll calls).1)
      (released (hub.answerAll calls).1) (hub.answerAll calls).2.identifiers := by
  -- What was seen grows along the calls, so it is left open.
  induction calls generalizing hub seen with
  | nil => exact .refl _ _
  | cons first rest ih =>
    obtain ⟨call, meanwhile⟩ := first
    obtain ⟨next, config, deals⟩ := upheldBy order call
    exact deals.leads order counts fun seen counts =>
      ih (next.carry (meanwhile _)) (config ▸ counts)

/-- The table of a new hub, after any calls in any order, whatever the clock shows at each.
Whatever the first identifier and the grace period are set to, every hosted object is live under an
identifier of its own, those in use and those that wait are together all that were counted up, each
once, and an object can be hosted exactly as long as an identifier is left: the one released first,
once it has waited out the grace period, or a fresh one. -/
theorem ledger_of_calls (c : Catalog) (carrier : τ) (config : HubConfig)
    (calls : List (Call × (τ → τ))) :
    ((Hub.new c carrier config).answerAll calls).2.Ledger config
      ((Hub.new c carrier config).answerAll calls).1 := by
  have new := inOrder_new c carrier config
  have nothing : (Hub.new c carrier config).identifiers.Seen (max config.firstObjectId 1) [] :=
    fun id => by simp [Hub.new, Identifiers.ofConfig]
  obtain ⟨order, same⟩ := answerAll_upholds new calls
  have leads := answerAll_leads new nothing calls
  generalize (Hub.new c carrier config).answerAll calls = run at *
  obtain ⟨replies, hub⟩ := run
  have accounts : hub.identifiers.Accounts (max config.firstObjectId 1) hub.hosted.keys := by
    have := order.accounts
    rwa [same] at this
  have grace : hub.identifiers.grace = hub.config.grace := by
    rw [leads.grace, same]
    rfl
  exact {
    config_eq := same
    serves := fun id hosted held =>
      ⟨accounts.ne_none (Entries.mem_keys_of_get? held), order.serves id hosted held⟩
    alone := fun _ _ _ _ held held' => order.eq_of_handle held held'
    distinct := accounts.distinct
    given_iff := accounts.given_iff
    counted := leads.counted
    queued := leads.queued
    once := leads.nodup rfl
    at_once := fun none now _ _ => available?_at_once (same ▸ none) now
    registers := fun now h o shared unregistered => grants_of grace
      (fun _ _ allocated => ⟨_, register_ok shared unregistered allocated⟩)
      (register_exhausted shared unregistered)
    hosts := fun now o unregistered => grants_of grace
      (fun _ _ allocated => (host_ok unregistered allocated).elim fun _ hosted => ⟨_, hosted⟩)
      (host_exhausted unregistered) }

/-- An identifier that is released at five can be used again from eight on, before a fresh one. -/
example :
    let o : SharedObject := ⟨.none, .unregistered, .root, [], []⟩
    granted ((Hub.new .initial Tape.blank ⟨3, 64, 1⟩).answerAll
      [(.host ⟨0⟩ o, id), (.host ⟨1⟩ o, id), (.ask (.unregister ⟨5⟩ ⟨1⟩), id), (.host ⟨7⟩ o, id),
        (.host ⟨8⟩ o, id), (.host ⟨9⟩ o, id)]).1 =
      [(⟨1⟩, ⟨0⟩), (⟨2⟩, ⟨1⟩), (⟨3⟩, ⟨7⟩), (⟨1⟩, ⟨8⟩), (⟨4⟩, ⟨9⟩)] := by
  decide +kernel

end Answering

end Hub

end SharedObjects
