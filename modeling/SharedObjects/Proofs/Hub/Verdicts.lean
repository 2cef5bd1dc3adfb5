import SharedObjects.Proofs.Hub.Runs
set_option autoImplicit false

namespace SharedObjects

variable {τ : Type}

/-- A message that was offered, and what the carrier said to it. -/
structure Verdict where
  receiver : EndpointId
  bytes : Octets
  answer : Except DeliveryFault Unit

namespace Verdict

/-- Snapshots, events and removals are counted. -/
def counts (v : Verdict) : Bool :=
  match Message.decode v.bytes with
  | .ok m => m.kind ∈ [.snapshot, .event, .removed]
  | .error _ => false

def failure? (v : Verdict) : Option (EndpointId × DeliveryFault) :=
  match v.answer with
  | .ok _ => none
  | .error fault => some (v.receiver, fault)

def taken (verdicts : List Verdict) : Nat := verdicts.countP fun v => v.counts && v.answer.isOk

def refused (verdicts : List Verdict) : Nat := verdicts.countP fun v => v.counts && !v.answer.isOk

theorem counts_wire {m : Message} (legible : m.Legible) (e : EndpointId)
    (answer : Except DeliveryFault Unit) :
    (⟨e, m.wire, answer⟩ : Verdict).counts = decide (m.kind ∈ [.snapshot, .event, .removed]) := by
  have read : Message.decode m.wire = .ok m := legible
  simp only [counts, read]

end Verdict

def Carrier.verdicts [Carrier τ] : List (EndpointId × Octets) → τ → List Verdict
  | [], _ => []
  | (e, bytes) :: rest, t => ⟨e, bytes, (send e bytes t).1⟩ :: verdicts rest (send e bytes t).2

def Turn.verdicts [Carrier τ] (t : Turn τ) : List Verdict :=
  Carrier.verdicts t.offers t.before.carrier

def Message.wires (sent : List (EndpointId × Message)) : List (EndpointId × Octets) :=
  sent.map fun s => (s.1, s.2.wire)

theorem Turn.Sends.verdicts_eq [Carrier τ] {t : Turn τ} {sent : List (EndpointId × Message)}
    (sends : t.Sends sent) :
    t.verdicts = Carrier.verdicts (Message.wires sent) t.before.carrier := by
  rw [verdicts, sends.offers_eq, Message.wires]

theorem length_refusals (answers : List (EndpointId × Except DeliveryFault Unit)) :
    (refusals answers).length = answers.countP fun a => !a.2.isOk := by
  induction answers with
  | nil => rfl
  | cons a rest ih =>
    unfold refusals at ih
    cases answer : a.2 <;>
      simp [refusals, answer, ih, Except.isOk, Except.toBool]

theorem takers_add_refusals (answers : List (EndpointId × Except DeliveryFault Unit)) :
    takers answers + (refusals answers).length = answers.length := by
  rw [length_refusals, takers, answers.length_eq_countP_add_countP fun a => a.2.isOk]
  simp

section Toward

variable [Carrier τ] {m : Message} {es : List EndpointId} {t : τ}

theorem Carrier.map_fst_answers (bytes : Octets) (es : List EndpointId) (t : τ) :
    (answers bytes es t).map Prod.fst = es := by
  induction es generalizing t with
  | nil => rfl
  | cons e es ih => simp [answers, ih]

theorem Carrier.verdicts_toEach (m : Message) (es : List EndpointId) (t : τ) :
    verdicts (Message.wires (m.toEach es)) t =
      (answers m.wire es t).map fun a => ⟨a.1, m.wire, a.2⟩ := by
  induction es generalizing t with
  | nil => rfl
  | cons e es ih => exact congrArg _ (ih _)

theorem Verdict.taken_toEach (legible : m.Legible)
    (counted : m.kind ∈ [MessageKind.snapshot, .event, .removed]) :
    taken (Carrier.verdicts (Message.wires (m.toEach es)) t) =
      takers (Carrier.answers m.wire es t) := by
  rw [Carrier.verdicts_toEach, taken, List.countP_map, takers]
  simp [Function.comp_def, counts_wire legible, counted]

theorem Verdict.refused_toEach (legible : m.Legible)
    (counted : m.kind ∈ [MessageKind.snapshot, .event, .removed]) :
    refused (Carrier.verdicts (Message.wires (m.toEach es)) t) =
      (refusals (Carrier.answers m.wire es t)).length := by
  rw [Carrier.verdicts_toEach, refused, List.countP_map, length_refusals]
  simp [Function.comp_def, counts_wire legible, counted]

end Toward

def HubAnswer.report? : HubAnswer → Option Report
  | .published r | .unregistered r => some r
  | _ => none

/-- A report is about everyone who subscribed at the time, and names those who refused, in the order
of their subscriptions. -/
structure Report.Faithful (r : Report) (subscribers : List EndpointId) (verdicts : List Verdict) :
    Prop where
  attempted : r.attempted = subscribers.length
  receivers : verdicts.map Verdict.receiver = subscribers
  failures : r.failures = verdicts.filterMap Verdict.failure?

namespace Hub

variable {hub after : Hub τ} {op : HubOperation} {result : Except Fault HubAnswer}
  {sent : List (EndpointId × Message)} {es : List EndpointId}

theorem subscribersOf_eq {id : ObjectId} {hosted : Hosted}
    (held : hub.hosted.get? id = some hosted) :
    hub.subscribersOf id = hosted.subscribers.endpoints := by
  simp [subscribersOf, held]

theorem InOrder.subscribersOf_eq (order : hub.InOrder) {id : ObjectId} {hosted : Hosted}
    (held : hub.hosted.get? id = some hosted) :
    hub.subscribersOf id = hosted.subscribers.active := by
  rw [Hub.subscribersOf_eq held, (order.serves id hosted held).tidy.active_eq]

variable [Carrier τ]

theorem faithful_report {id : ObjectId} (everyone : hub.subscribersOf id = es) (seq : Seq)
    (m : Message) : (hub.report id seq m es).Faithful (hub.subscribersOf id)
      (Carrier.verdicts (Message.wires (m.toEach es)) hub.carrier) := by
  have asked := Carrier.map_fst_answers m.wire es hub.carrier
  rw [everyone]
  refine ⟨?_, ?_, ?_⟩
  · have all := congrArg List.length asked
    rw [List.length_map] at all
    rw [Report.attempted, report, takers_add_refusals, all]
  · rw [Carrier.verdicts_toEach, List.map_map]
    exact asked
  · rw [Carrier.verdicts_toEach, List.filterMap_map]
    refine List.filterMap_congr ?_
    rintro ⟨_, answer⟩ -
    cases answer <;> rfl

theorem Outcome.reports (outcome : Outcome hub op result sent after) (order : hub.InOrder)
    {answer : HubAnswer} {r : Report} (answered : result = .ok answer)
    (reported : answer.report? = some r) :
    r.Faithful (hub.subscribersOf r.object)
      (Carrier.verdicts (Message.wires sent) hub.carrier) := by
  induction outcome with
  | published held =>
    cases answered
    cases reported
    exact faithful_report (order.subscribersOf_eq held) _ _
  | posted takes =>
    cases answered
    cases reported
    exact faithful_report (order.subscribersOf_eq takes.held) _ _
  | unregistered held =>
    cases answered
    cases reported
    exact faithful_report (subscribersOf_eq held) _ _
  | forwarded _ _ _ ih => exact ih answered
  | _ => cases answered <;> cases reported

theorem Outcome.counts (outcome : Outcome hub op result sent after) :
    after.tally.delivered = hub.tally.delivered +
      .ofNat (Verdict.taken (Carrier.verdicts (Message.wires sent) hub.carrier)) ∧
    after.tally.failed = hub.tally.failed +
      .ofNat (Verdict.refused (Carrier.verdicts (Message.wires sent) hub.carrier)) := by
  have legible := outcome.legible
  induction outcome with
  | @missing id e missing =>
    have read : (Message.refusal id).Legible := legible _ (.head _)
    have other : (Message.refusal id).kind = .subscribeFailed := rfl
    simp [Message.wires, Carrier.verdicts, Verdict.taken, Verdict.refused,
      Verdict.counts_wire read, other]
  | @refused id e hosted o body fault carrier shows refused =>
    have read : (Message.snapshot id hosted.last body).Legible := legible _ (.head _)
    simp [Message.wires, Carrier.verdicts, Verdict.taken, Verdict.refused,
      Verdict.counts_wire read, refused, Message.kind, Except.isOk, Except.toBool]
  | @subscribed id e hosted o body carrier shows taken =>
    have read : (Message.snapshot id hosted.last body).Legible := legible _ (.head _)
    simp [Message.wires, Carrier.verdicts, Verdict.taken, Verdict.refused,
      Verdict.counts_wire read, taken, Message.kind, Except.isOk, Except.toBool, joined,
      HubTally.subscribe]
  | published _ _ _ encoded =>
    have read := Event.legible encoded
    rw [Verdict.taken_toEach (read _) (by simp [Message.kind]),
      Verdict.refused_toEach (read _) (by simp [Message.kind])]
    exact ⟨rfl, rfl⟩
  | posted takes =>
    have read := Event.legible takes.encoded
    rw [Verdict.taken_toEach (read _) (by simp [Message.kind]),
      Verdict.refused_toEach (read _) (by simp [Message.kind])]
    exact ⟨rfl, rfl⟩
  | @unregistered now id hosted o held shared live =>
    have read : (Message.removed id).Legible := Message.decode_wire trivial trivial
    rw [Verdict.taken_toEach read (by simp [Message.kind]),
      Verdict.refused_toEach read (by simp [Message.kind])]
    exact ⟨rfl, rfl⟩
  | forwarded _ _ _ ih => exact ih legible
  | _ =>
    simp [Message.wires, Carrier.verdicts, Verdict.taken, Verdict.refused, registering, without]

end Hub

end SharedObjects
