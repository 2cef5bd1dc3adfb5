import SharedObjects.Proofs.Cluster.Keeping
set_option autoImplicit false

namespace SharedObjects

namespace Hub

variable {τ : Type} {hub : Hub τ} {hosted : Hosted} {e other : EndpointId} {id otherId : ObjectId}

/-- The object and how much of it: all that was published. -/
def owed (hub : Hub τ) (e : EndpointId) (id : ObjectId) : Option (Handle × Nat) :=
  match hub.hosted.get? id with
  | some hosted =>
    if e ∈ hosted.subscribers.endpoints then some (hosted.handle, hosted.last.toNat) else none
  | none => none

theorem owed_of_hosted (held : hub.hosted.get? id = some hosted) : hub.owed e id =
    if e ∈ hosted.subscribers.endpoints then some (hosted.handle, hosted.last.toNat) else none := by
  simp [owed, held]

theorem owed_of_missing (missing : hub.hosted.get? id = none) : hub.owed e id = none := by
  simp [owed, missing]

theorem owed_eq {after : Hub τ} (same : after.hosted.get? id = hub.hosted.get? id) :
    after.owed e id = hub.owed e id := by simp [owed, same]

theorem owed_hosting (o : SharedObject) (identifiers : Identifiers) (tally : HubTally) :
    (hub.hosting id o identifiers tally).owed e otherId =
      if otherId = id then none else hub.owed e otherId := by
  split
  · rename_i same
    subst same
    rw [owed_of_hosted (Entries.get?_put_self _ _ _)]
    simp [Subscribers.none, Subscribers.endpoints]
  · rename_i different
    exact owed_eq (Entries.get?_put_ne different _ _)

theorem owed_joined (held : hub.hosted.get? id = some hosted) (carrier : τ) (tally : HubTally) :
    (hub.joined id e hosted carrier tally).owed other otherId =
      if otherId = id ∧ other = e then some (hosted.handle, hosted.last.toNat)
      else hub.owed other otherId := by
  by_cases here : otherId = id
  · subst here
    rw [owed_of_hosted (Entries.get?_put_self _ _ _), owed_of_hosted held]
    simp only [Subscribers.mem_endpoints_add, true_and]
    by_cases same : other = e <;> simp [same]
  · rw [owed_eq (Entries.get?_put_ne here _ _)]
    simp [here]

theorem owed_unsubscribed (held : hub.hosted.get? id = some hosted) :
    owed { hub with
        hosted := hub.hosted.put id
          { hosted with subscribers := (hosted.subscribers.remove e).2 } } other otherId =
      if otherId = id ∧ other = e then none else hub.owed other otherId := by
  by_cases here : otherId = id
  · subst here
    rw [owed_of_hosted (Entries.get?_put_self _ _ _), owed_of_hosted held]
    simp only [Subscribers.mem_endpoints_remove, true_and]
    by_cases same : other = e <;> simp [same]
  · rw [owed_eq (Entries.get?_put_ne here _ _)]
    simp [here]

theorem owed_without {after : Hub τ} (left : ∀ id, after.hosted.get? id =
    (hub.hosted.get? id).map fun h => { h with subscribers := (h.subscribers.remove e).2 }) :
    after.owed other id = if other = e then none else hub.owed other id := by
  cases before : hub.hosted.get? id with
  | none =>
    rw [owed_of_missing before, owed_of_missing (by rw [left, before]; rfl), ite_self]
  | some hosted =>
    have held := left id
    rw [before] at held
    rw [owed_of_hosted before, owed_of_hosted held]
    simp only [Subscribers.mem_endpoints_remove]
    by_cases same : other = e <;> simp [same]

section Carried

variable [Carrier τ]

theorem owed_published (after : SharedObject) (event : Event) (body : Octets) (tally : HubTally) :
    (hub.published id hosted after event body tally).owed e otherId =
      if otherId = id then
        if e ∈ hosted.subscribers.endpoints then some (hosted.handle, hosted.last.next.toNat)
        else none
      else hub.owed e otherId := by
  split
  · rename_i same
    subst same
    have held : (hub.published otherId hosted after event body tally).hosted.get? otherId =
        some { hosted with last := hosted.last.next } := Entries.get?_put_self _ _ _
    exact owed_of_hosted held
  · rename_i different
    exact owed_eq ((published_hosted _ _ _ _ _).trans (if_neg different))

theorem owed_leaving (now : Instant) (o : SharedObject) (tally : HubTally) :
    (hub.leaving now id hosted o tally).owed e otherId =
      if otherId = id then none else hub.owed e otherId := by
  have held : (hub.leaving now id hosted o tally).hosted.get? otherId =
      if otherId = id then none else hub.hosted.get? otherId := Entries.get?_erase _ _ _
  split
  · rename_i same
    exact owed_of_missing (held.trans (if_pos same))
  · rename_i different
    exact owed_eq (held.trans (if_neg different))

end Carried

end Hub

end SharedObjects
