import SharedObjects.Proofs.Hub.Subscribable
set_option autoImplicit false

namespace SharedObjects

theorem Event.forwarded_ok {c : Catalog} {e : Event} {body : Octets}
    (encoded : e.encode c = .ok body) : e.forwarded c = .ok (Message.forwardEvent body).wire := by
  rw [forwarded, encoded]
  exact Message.encode_eq_ok_iff.mpr ⟨trivial, rfl⟩

namespace Hub

open Attempt

variable {τ : Type} [Carrier τ] {hub : Hub τ} {id : ObjectId} {hosted : Hosted} {o : SharedObject}
  {e : Event} {body : Octets}

/-- Posting does both: it applies an event and publishes it. -/
theorem apply_then_publish (held : hub.hosted.get? id = some hosted)
    (shared : hub.objectAt? hosted.handle = some o) (live : o.stage = .live) (named : e.object = id)
    (encoded : e.encode hub.catalog = .ok body) :
    (do applyAt hosted.handle e; publish id e : HubAction τ Report) hub = post id e hub := by
  rw [post_eq held shared live encoded]
  cases applied : o.apply e with
  | error fault =>
    have refused := applyAt_error shared applied
    rw [bind_error refused, bind_error refused]
  | ok after =>
    have there := objectAt?_set shared after
    have allowed : after.stage.allowsPublishing = true := by
      simp [SharedObject.stage_of_apply applied, live, Stage.allowsPublishing]
    have done := applyAt_ok shared applied
    rw [bind_ok done, bind_ok done]
    exact publish_eq held there allowed named encoded

/-- Whether an event is posted, forwarded by some endpoint, or applied and then published, the
report or the fault is the same, and so are the objects, the subscribers, the counts, and all that
is offered to the carrier, whatever carrier that is. -/
theorem publications_agree (reachable : hub.catalog.Reachable)
    (held : hub.hosted.get? id = some hosted) (shared : hub.objectAt? hosted.handle = some o)
    (live : o.stage = .live) (named : e.object = id) (keyed : e.WellKeyed)
    (encoded : e.encode hub.catalog = .ok body) :
    ∃ message, (Message.forwardEvent body).encode = .ok message ∧
      handleForward message hub = post id e hub ∧
      (do applyAt hosted.handle e; publish id e : HubAction τ Report) hub = post id e hub := by
  have forwarded := Event.forwarded_ok encoded
  refine ⟨_, Message.encode_eq_ok_iff.mpr ⟨trivial, rfl⟩, ?_,
    apply_then_publish held shared live named encoded⟩
  rw [handleForward_of_forwarded reachable keyed forwarded, named]

theorem publications_agree_log : ∃ body message : Octets,
    Event.encode logCatalog ⟨⟨1⟩, 0, .listSet 0 (.tower 2)⟩ = .ok body ∧
    (Message.forwardEvent body).encode = .ok message ∧
    handleForward message logHub = post ⟨1⟩ ⟨⟨1⟩, 0, .listSet 0 (.tower 2)⟩ logHub ∧
    (do applyAt ⟨0⟩ ⟨⟨1⟩, 0, .listSet 0 (.tower 2)⟩
        publish ⟨1⟩ ⟨⟨1⟩, 0, .listSet 0 (.tower 2)⟩ : HubAction Tape Report) logHub =
      post ⟨1⟩ ⟨⟨1⟩, 0, .listSet 0 (.tower 2)⟩ logHub := by
  obtain ⟨body, takes⟩ := @takes_tower 2 (by decide)
  have keyed : Event.WellKeyed ⟨⟨1⟩, 0, .listSet 0 (.tower 2)⟩ := by
    simp only [Event.WellKeyed, Action.values, List.mem_singleton, forall_eq]
    decide
  obtain ⟨message, written, agree⟩ := publications_agree (.register .initial register_log)
    takes.held takes.shared takes.live rfl keyed takes.encoded
  exact ⟨body, message, takes.encoded, written, agree⟩

end Hub

end SharedObjects
