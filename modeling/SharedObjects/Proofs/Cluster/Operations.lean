import SharedObjects.Cluster
import SharedObjects.Proofs.Hub.Operations
import SharedObjects.Proofs.SharedObject.Making
set_option autoImplicit false

namespace SharedObjects.Cluster

variable {α : Type} {c : Cluster} {action : HubAction Link α}

theorem act_ok {a : α} {hub : Hub Link} (step : action c.hub = .ok a hub) :
    c.act action = (.ok a, { c with hub := hub }) := by
  rw [act, Attempt.outcome_ok step]

theorem act_error {fault : Fault} {hub : Hub Link} (step : action c.hub = .error fault hub) :
    c.act action = (.error fault, { c with hub := hub }) := by
  rw [act, Attempt.outcome_error step]

theorem host_cases (reachable : c.hub.catalog.Reachable) (now : Instant) (type : String)
    {fields : List (UInt16 × Value)} (keyed : ∀ f ∈ fields, f.2.WellKeyed) :
    (∃ fault, c.host now type fields = (.error fault, c)) ∨
    ∃ id o identifiers tally, o.Fresh c.hub.catalog ∧
      c.host now type fields =
        (.ok id, { c with hub := c.hub.hosting id o identifiers tally }) := by
  unfold host
  cases made : SharedObject.make c.hub.catalog type fields with
  | error fault =>
    refine .inl ⟨fault, act_error ?_⟩
    rw [Attempt.get_bind, Attempt.bind_error (Attempt.demand_error made _)]
  | ok o =>
    have step : (do
        Hub.host now (← Attempt.demand (SharedObject.make (← get).catalog type fields)) :
        HubAction Link ObjectId) c.hub = Hub.host now o c.hub := by
      rw [Attempt.get_bind, Attempt.bind_ok (Attempt.demand_ok made _)]
    rcases Hub.host_cases now o c.hub with ⟨fault, refused⟩ | ⟨id, identifiers, tally, _, hosted⟩
    · exact .inl ⟨fault, act_error (step.trans refused)⟩
    · exact .inr ⟨id, o, identifiers, tally, SharedObject.fresh_of_make reachable keyed made,
        act_ok (step.trans hosted)⟩

theorem post_cases (event : Event) (c : Cluster) :
    (∃ fault, c.post event = (.error fault, c)) ∨
    ∃ hosted o after body report tally, c.hub.Takes event.object event hosted o after body ∧
      c.post event = (.ok report,
        { c with hub := c.hub.published event.object hosted after event body tally }) := by
  obtain ⟨fault, refused⟩ | ⟨hosted, o, after, body, report, tally, takes, posted⟩ :=
    Hub.post_cases event.object event c.hub
  · exact .inl ⟨fault, act_error refused⟩
  · exact .inr ⟨hosted, o, after, body, report, tally, takes, act_ok posted⟩

/-- What is forwarded is posted, unless it is lost on the way. -/
theorem forward_cases (reachable : c.hub.catalog.Reachable) {event : Event}
    (keyed : event.WellKeyed) :
    (∃ fault, c.forward event = (.error fault, c)) ∨ c.forward event = c.post event := by
  unfold forward
  cases sent : event.forwarded c.hub.catalog with
  | error fault =>
    refine .inl ⟨fault, act_error ?_⟩
    rw [Attempt.get_bind, Attempt.bind_error (Attempt.demand_error sent _)]
  | ok message =>
    have step : (do
        Hub.handleForward (← Attempt.demand (event.forwarded (← get).catalog)) :
        HubAction Link Report) c.hub = Hub.handleForward message c.hub := by
      rw [Attempt.get_bind, Attempt.bind_ok (Attempt.demand_ok sent _)]
    right
    unfold post act
    rw [Attempt.outcome, step, Hub.handleForward_of_forwarded reachable keyed sent]
    rfl

end SharedObjects.Cluster
