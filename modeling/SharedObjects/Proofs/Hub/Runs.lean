import SharedObjects.Proofs.Hub.Order
/-!
Runs of a hub: any operations in any order, on a carrier that takes or refuses each message as it
likes and may change in any way between two operations. Every operation of a run is a turn, which
keeps the hub before and after it; what was offered in it, and about which object, can be read off.
-/
set_option autoImplicit false

namespace SharedObjects

/-- What happens to the carrier, and what the hub is asked then. -/
structure HubStep (τ : Type) where
  meanwhile : τ → τ
  operation : HubOperation

structure Turn (τ : Type) where
  before : Hub (Recorded τ)
  operation : HubOperation
  answer : Except Fault HubAnswer
  after : Hub (Recorded τ)

variable {τ : Type}

namespace Hub

def handle? (hub : Hub τ) (id : ObjectId) : Option Handle := (hub.hosted.get? id).map Hosted.handle

/-- Those who hear of the object behind a handle. -/
def audience (hub : Hub τ) (h : Handle) : List EndpointId :=
  match hub.hosted.find? fun entry => entry.2.handle = h with
  | some (_, hosted) => hosted.subscribers.endpoints
  | none => []

end Hub

namespace Turn

def offers (t : Turn τ) : List (EndpointId × Octets) :=
  t.after.carrier.offers.drop t.before.carrier.offers.length

def messages (t : Turn τ) : List (EndpointId × Message) :=
  t.offers.filterMap fun (e, bytes) =>
    match Message.decode bytes with
    | .ok m => some (e, m)
    | .error _ => none

/-- The object that a message is about, as the identifiers were given out then. -/
def subject? (t : Turn τ) (m : Message) : Option Handle :=
  match m.object with
  | .ok id => t.before.handle? id
  | .error _ => none

/-- What an endpoint was offered about an object in this turn. -/
def told (t : Turn τ) (h : Handle) (e : EndpointId) : List Message :=
  (t.messages.filter fun s => s.1 = e ∧ t.subject? s.2 = some h).map Prod.snd

def publishes (t : Turn τ) (h : Handle) : Bool :=
  (publication? t.answer).bind t.before.handle? = some h

def unregisters (t : Turn τ) (h : Handle) : Bool :=
  (removal? t.answer).bind t.before.handle? = some h

def Joins (t : Turn τ) (h : Handle) (e : EndpointId) : Prop :=
  ∃ id, t.operation.Joins t.answer id e ∧ t.before.handle? id = some h

/-- The endpoint was taken off the subscribers of this object, or the object went. -/
def Leaves (t : Turn τ) (h : Handle) (e : EndpointId) : Prop :=
  (∃ id, t.operation.Drops id e ∧ t.before.handle? id = some h) ∨ t.unregisters h

end Turn

def publications (turns : List (Turn τ)) (h : Handle) : Nat := turns.countP fun t => t.publishes h

def hearers (turns : List (Turn τ)) (h : Handle) : List EndpointId :=
  match turns.getLast? with
  | some t => t.after.audience h
  | none => []

theorem publications_cons (t : Turn τ) (turns : List (Turn τ)) (h : Handle) :
    publications (t :: turns) h = (if t.publishes h then 1 else 0) + publications turns h := by
  rw [publications, List.countP_cons, Nat.add_comm]
  rfl

theorem publications_snoc (turns : List (Turn τ)) (t : Turn τ) (h : Handle) :
    publications (turns ++ [t]) h = publications turns h + if t.publishes h then 1 else 0 := by
  simp [publications, List.countP_append, List.countP_singleton]

theorem hearers_snoc (turns : List (Turn τ)) (t : Turn τ) (h : Handle) :
    hearers (turns ++ [t]) h = t.after.audience h := by
  simp [hearers]

namespace Hub

section Hosting

variable {hub : Hub τ} {id : ObjectId} {hosted : Hosted} {h : Handle} {e : EndpointId}

theorem handle?_eq_some_iff : hub.handle? id = some h ↔
    ∃ hosted, hub.hosted.get? id = some hosted ∧ hosted.handle = h := by
  simp [handle?]

theorem InOrder.handle?_inj (order : hub.InOrder) (here : hub.handle? id = some h)
    {other : ObjectId} (there : hub.handle? other = some h) : other = id := by
  obtain ⟨hosted, held, rfl⟩ := handle?_eq_some_iff.mp here
  obtain ⟨hosted', held', same⟩ := handle?_eq_some_iff.mp there
  exact order.eq_of_handle held held' same

theorem InOrder.distinct (order : hub.InOrder) : hub.hosted.Distinct :=
  (List.nodup_append.mp order.accounts.distinct).1

theorem InOrder.audience_eq (order : hub.InOrder) (held : hub.hosted.get? id = some hosted) :
    hub.audience hosted.handle = hosted.subscribers.endpoints := by
  unfold audience
  cases found : hub.hosted.find? fun entry => entry.2.handle = hosted.handle with
  | none =>
    have mem := order.distinct.mem_iff.mpr held
    have := List.find?_eq_none.mp found _ mem
    simp at this
  | some entry =>
    obtain ⟨other, hosted'⟩ := entry
    have same : hosted'.handle = hosted.handle := by simpa using List.find?_some found
    have held' := order.distinct.mem_iff.mp (List.mem_of_find?_eq_some found)
    obtain rfl := order.eq_of_handle held held' same
    rw [held] at held'
    cases held'
    rfl

theorem audience_eq_nil (unhosted : ∀ id, hub.handle? id ≠ some h) (order : hub.InOrder) :
    hub.audience h = [] := by
  unfold audience
  cases found : hub.hosted.find? fun entry => entry.2.handle = h with
  | none => rfl
  | some entry =>
    obtain ⟨id, hosted⟩ := entry
    have same : hosted.handle = h := by simpa using List.find?_some found
    have held := order.distinct.mem_iff.mp (List.mem_of_find?_eq_some found)
    exact absurd (handle?_eq_some_iff.mpr ⟨hosted, held, same⟩) (unhosted id)

theorem InOrder.mem_audience_iff (order : hub.InOrder) : e ∈ hub.audience h ↔
    ∃ id hosted, hub.hosted.get? id = some hosted ∧ hosted.handle = h ∧
      e ∈ hosted.subscribers.endpoints := by
  constructor
  · intro hears
    by_cases hosts : ∃ id, hub.handle? id = some h
    · obtain ⟨id, at_⟩ := hosts
      obtain ⟨hosted, held, rfl⟩ := handle?_eq_some_iff.mp at_
      exact ⟨id, hosted, held, rfl, order.audience_eq held ▸ hears⟩
    · have nobody := audience_eq_nil (fun id at_ => hosts ⟨id, at_⟩) order
      simp [nobody] at hears
  · rintro ⟨id, hosted, held, rfl, hears⟩
    rwa [order.audience_eq held]

end Hosting

variable [Carrier τ]

def turn (hub : Hub (Recorded τ)) (s : HubStep τ) : Turn τ :=
  let before := { hub with
    carrier := { hub.carrier with carrier := s.meanwhile hub.carrier.carrier } }
  let (answer, after) := (perform s.operation).outcome before
  ⟨before, s.operation, answer, after⟩

def play (hub : Hub (Recorded τ)) : List (HubStep τ) → List (Turn τ)
  | [] => []
  | s :: rest => hub.turn s :: play (hub.turn s).after rest

def history (c : Catalog) (config : HubConfig) (carrier : τ) (steps : List (HubStep τ)) :
    List (Turn τ) :=
  (Hub.new c ⟨carrier, []⟩ config).play steps

/-- What every turn preserves holds before each turn of a run, of the turns up to there. -/
theorem play_induction {I : List (Turn τ) → Hub (Recorded τ) → Prop}
    (step : ∀ past hub s, I past hub → I (past ++ [hub.turn s]) (hub.turn s).after)
    {past done later : List (Turn τ)} {hub : Hub (Recorded τ)} {steps : List (HubStep τ)}
    {t : Turn τ} (start : I past hub) (split : hub.play steps = done ++ t :: later) :
    ∃ now s rest, I (past ++ done) now ∧ t = now.turn s ∧ later = t.after.play rest := by
  induction done generalizing past hub steps with
  | nil =>
    cases steps with
    | nil => cases split
    | cons s rest =>
      cases split
      exact ⟨hub, s, rest, by simpa using start, rfl, rfl⟩
  | cons first done ih =>
    cases steps with
    | nil => cases split
    | cons s rest =>
      obtain ⟨same, following⟩ := List.cons.inj split
      subst same
      simpa using ih (step past hub s start) following

end Hub

namespace Turn

variable [Carrier τ] {t : Turn τ} {sent : List (EndpointId × Message)}

/-- The turn is an outcome of its operation, in which these messages were offered. -/
def Sends (t : Turn τ) (sent : List (EndpointId × Message)) : Prop :=
  Hub.Outcome t.before t.operation t.answer sent t.after

theorem exists_sends (hub : Hub (Recorded τ)) (s : HubStep τ) : ∃ sent, (hub.turn s).Sends sent :=
  Hub.comes s.operation _

theorem Sends.offers_eq (sends : t.Sends sent) :
    t.offers = sent.map fun s => (s.1, s.2.wire) := by
  have record := Recorded.offers_offerEach sent t.before.carrier
  rw [← Hub.Outcome.carrier_eq sends] at record
  rw [offers, record, List.drop_left]

theorem Sends.messages_eq (sends : t.Sends sent) : t.messages = sent := by
  rw [messages, sends.offers_eq, List.filterMap_map]
  have legible := Hub.Outcome.legible sends
  refine (List.filterMap_congr fun s mem => ?_).trans List.filterMap_some
  have read : Message.decode s.2.wire = .ok s.2 := legible s mem
  simp [read]

end Turn

end SharedObjects
