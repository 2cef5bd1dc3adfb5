import SharedObjects.Proofs.Hub.Outcomes
import SharedObjects.Proofs.Hub.Subscribable
set_option autoImplicit false

namespace SharedObjects

variable {τ : Type} [Carrier τ]

namespace Hub

theorem Outcome.intact {op : HubOperation} {result : Except Fault HubAnswer} {fault : Fault}
    {sent : List (EndpointId × Message)} {hub after : Hub (Recorded τ)}
    (outcome : Outcome hub op result sent after) (failed : result = .error fault) :
    after = hub ∨
    ∃ id e bytes m, op = .subscribe id e ∧ Message.decode bytes = .ok m ∧
      (m.kind = .snapshot ∨ m.kind = .subscribeFailed) ∧
      after.carrier = (Carrier.send e bytes hub.carrier).2 ∧
      after.carrier.offers = hub.carrier.offers ++ [(e, bytes)] ∧
      after = { hub with
        carrier := after.carrier
        tally := { hub.tally with failed := after.tally.failed } } := by
  have decoded := outcome.legible
  have record := Recorded.offers_offerEach sent hub.carrier
  rw [← outcome.carrier_eq] at record
  induction outcome with
  | failed => exact .inl rfl
  | @missing id e missing =>
    exact .inr ⟨id, e, _, _, rfl, decoded _ (.head _), .inr rfl, rfl, record, rfl⟩
  | @refused id e hosted o body fault carrier shows refused =>
    exact .inr ⟨id, e, _, _, rfl, decoded _ (.head _), .inl rfl, by rw [refused], record, rfl⟩
  | forwarded _ _ _ ih =>
    rcases ih failed decoded record with same | ⟨_, _, _, _, other, _⟩
    · exact .inl same
    · cases other
  | _ => cases failed

/-- An operation that fails leaves the hub as it was. Only a failed subscription may have offered a
message, which was a snapshot or a refusal for the endpoint that asked, and have counted that it was
not taken. -/
theorem intact_of_error {op : HubOperation} {fault : Fault} {hub after : Hub (Recorded τ)}
    (failed : perform op hub = .error fault after) :
    after = hub ∨
    ∃ id e bytes m, op = .subscribe id e ∧ Message.decode bytes = .ok m ∧
      (m.kind = .snapshot ∨ m.kind = .subscribeFailed) ∧
      after.carrier = (Carrier.send e bytes hub.carrier).2 ∧
      after.carrier.offers = hub.carrier.offers ++ [(e, bytes)] ∧
      after = { hub with
        carrier := after.carrier
        tally := { hub.tally with failed := after.tally.failed } } := by
  obtain ⟨sent, outcome⟩ := comes op hub
  rw [Attempt.outcome_error failed] at outcome
  exact outcome.intact rfl

/-- A hub whose log has a subscriber. -/
def heardHub (body : Octets) : Hub (Recorded Tape) :=
  let message := (Message.snapshot ⟨1⟩ .zero body).wire
  ⟨logCatalog, .testing, ⟨⟨[], [(⟨1⟩, message)]⟩, [(⟨1⟩, message)]⟩, ⟨2, [], 0⟩, [logOf .null],
    [(⟨1⟩, ⟨⟨0⟩, ⟨[⟨⟨1⟩, 0⟩], #[true]⟩, .zero⟩)], ⟨1, 0, 1, 0, 1, 0⟩, []⟩

def deafHub (body : Octets) : Hub (Recorded Tape) :=
  let recorded := (heardHub body).carrier
  { heardHub body with
    carrier := { recorded with carrier := recorded.carrier.setFailing ⟨1⟩ (some .disconnected) } }

/-- A subscriber that asks again and does not take its snapshot stays one. -/
theorem intact_of_error_resubscribed : ∃ body after,
    (do
      let _ ← perform (.place { logOf .null with id := .none, stage := .unregistered })
      let _ ← perform (.register ⟨0⟩ ⟨0⟩)
      perform (.subscribe ⟨1⟩ ⟨1⟩) : HubAction (Recorded Tape) HubAnswer)
        (.new logCatalog ⟨.blank, []⟩ .testing) = .ok .subscribed (heardHub body) ∧
    perform (.subscribe ⟨1⟩ ⟨1⟩) (deafHub body) = .error (.delivery .disconnected) after ∧
    (after = deafHub body ∨
      ∃ id e bytes m, HubOperation.subscribe ⟨1⟩ ⟨1⟩ = .subscribe id e ∧
        Message.decode bytes = .ok m ∧ (m.kind = .snapshot ∨ m.kind = .subscribeFailed) ∧
        after.carrier = (Carrier.send e bytes (deafHub body).carrier).2 ∧
        after.carrier.offers = (deafHub body).carrier.offers ++ [(e, bytes)] ∧
        after = { deafHub body with
          carrier := after.carrier
          tally := { (deafHub body).tally with failed := after.tally.failed } }) := by
  obtain ⟨body, shown⟩ := shows_log
  let hosting : Hub (Recorded Tape) := .hosting (.new logCatalog ⟨.blank, []⟩ .testing) ⟨1⟩
    { logOf .null with id := .none, stage := .unregistered } ⟨2, [], 0⟩ ⟨1, 0, 0, 0, 0, 0⟩
  have shows : hosting.Shows ⟨1⟩ ⟨⟨0⟩, .none, .zero⟩ (logOf .null) body :=
    ⟨rfl, rfl, rfl, shown.written⟩
  have again : (deafHub body).Shows ⟨1⟩ ⟨⟨0⟩, ⟨[⟨⟨1⟩, 0⟩], #[true]⟩, .zero⟩ (logOf .null) body :=
    ⟨rfl, rfl, rfl, shown.written⟩
  have joined : subscribe ⟨1⟩ ⟨1⟩ hosting = .ok () (heardHub body) := shows.subscribe rfl
  have subscribed : perform (.subscribe ⟨1⟩ ⟨1⟩) hosting = .ok .subscribed (heardHub body) :=
    Attempt.bind_ok joined
  have refused := subscribe_refused again (e := ⟨1⟩) rfl
  have failed : perform (.subscribe ⟨1⟩ ⟨1⟩) (deafHub body) = .error (.delivery .disconnected) _ :=
    Attempt.bind_error refused
  exact ⟨body, _, subscribed, failed, intact_of_error failed⟩

end Hub

end SharedObjects
