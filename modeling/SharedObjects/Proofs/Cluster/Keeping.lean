import SharedObjects.Proofs.Cluster.Stories
import SharedObjects.Proofs.Hub.Operations
import SharedObjects.Proofs.Sequencer
import SharedObjects.Proofs.SharedObject.Making
set_option autoImplicit false

namespace SharedObjects

namespace Hub

variable {τ : Type} {hub : Hub τ} {ss : Stories} {id : ObjectId} {hosted : Hosted}
  {o after : SharedObject}

/-- The hosted object stands where its story ends, and its events are counted; every subscriber is
there once, and active. -/
structure Hosts (hub : Hub τ) (ss : Stories) (id : ObjectId) (hosted : Hosted) : Prop where
  shared : ∃ o, hub.objectAt? hosted.handle = some o ∧ o.id = id ∧
    ss.Ends hosted.handle hosted.last.toNat o
  tidy : hosted.subscribers.Tidy

/-- There is a story for every object, and the hub keeps to it. -/
structure Keeps (hub : Hub τ) (ss : Stories) : Prop where
  valid : ∀ s ∈ ss, s.Valid hub.catalog
  length_eq : ss.length = hub.objects.length
  hosts : ∀ id hosted, hub.hosted.get? id = some hosted → hub.Hosts ss id hosted

theorem Keeps.ends (keeps : hub.Keeps ss) (held : hub.hosted.get? id = some hosted)
    (shared : hub.objectAt? hosted.handle = some o) :
    o.id = id ∧ ss.Ends hosted.handle hosted.last.toNat o := by
  obtain ⟨found, at_, named, ends⟩ := (keeps.hosts id hosted held).shared
  cases at_.symm.trans shared
  exact ⟨named, ends⟩

theorem Keeps.handle_ne (keeps : hub.Keeps ss) (held : hub.hosted.get? id = some hosted)
    {other : ObjectId} {hosted' : Hosted} (held' : hub.hosted.get? other = some hosted')
    (different : other ≠ id) : hosted'.handle ≠ hosted.handle := by
  intro same
  obtain ⟨o, _, named, ends⟩ := (keeps.hosts id hosted held).shared
  obtain ⟨p, _, named', ends'⟩ := (keeps.hosts other hosted' held').shared
  rw [same] at ends'
  exact different (named'.symm.trans ((ends'.tells.id_eq ends.tells).trans named))

theorem Keeps.rehosted {after : Hub τ} (keeps : hub.Keeps ss)
    (catalog : after.catalog = hub.catalog) (objects : after.objects = hub.objects)
    (hosts : ∀ id now, after.hosted.get? id = some now → ∃ hosted,
      hub.hosted.get? id = some hosted ∧ now.handle = hosted.handle ∧ now.last = hosted.last ∧
        now.subscribers.Tidy) :
    after.Keeps ss where
  valid := by
    rw [catalog]
    exact keeps.valid
  length_eq := by rw [objects, keeps.length_eq]
  hosts := fun id now held => by
    obtain ⟨hosted, before, handle, last, tidy⟩ := hosts id now held
    have old := keeps.hosts id hosted before
    refine ⟨?_, tidy⟩
    rw [handle, last, objectAt?, objects]
    exact old.shared

theorem Keeps.carry (keeps : hub.Keeps ss) (carrier : τ) (tally : HubTally) :
    Keeps { hub with carrier := carrier, tally := tally } ss :=
  keeps.rehosted rfl rfl fun id now held =>
    ⟨now, held, rfl, rfl, (keeps.hosts id now held).tidy⟩

theorem Keeps.hosting (keeps : hub.Keeps ss) (fresh : o.Fresh hub.catalog)
    (id : ObjectId) (identifiers : Identifiers) (tally : HubTally) :
    (hub.hosting id o identifiers tally).Keeps (ss ++ [⟨{ o with id := id, stage := .live }, []⟩])
      where
  valid := fun s mem => by
    rcases List.mem_append.mp mem with old | new
    · exact keeps.valid s old
    · obtain rfl := List.mem_singleton.mp new
      exact .begin rfl fresh.quiet fresh.known fresh.distributed fresh.keyed
  length_eq := by simp [Hub.hosting, keeps.length_eq]
  hosts := fun other hosted held => by
    by_cases same : other = id
    · subst same
      cases (Entries.get?_put_self _ _ _).symm.trans held
      refine ⟨⟨{ o with id := other, stage := .live }, ?_, rfl, ?_⟩, Subscribers.tidy_none⟩
      · simp [objectAt?, Hub.hosting]
      · have ends := Stories.ends_append ss { o with id := other, stage := .live }
        rwa [keeps.length_eq] at ends
    · have old := keeps.hosts other hosted ((Entries.get?_put_ne same _ _).symm.trans held)
      obtain ⟨p, at_, named, ends⟩ := old.shared
      refine ⟨⟨p, ?_, named, ends.append _⟩, old.tidy⟩
      have within := (List.getElem?_eq_some_iff.mp at_).1
      exact (List.getElem?_append_left within).trans at_

theorem Keeps.subscribers (keeps : hub.Keeps ss) (held : hub.hosted.get? id = some hosted)
    {s : Subscribers} (tidy : s.Tidy) :
    Keeps { hub with hosted := hub.hosted.put id { hosted with subscribers := s } } ss := by
  refine keeps.rehosted rfl rfl fun other now found => ?_
  by_cases same : other = id
  · subst same
    cases (Entries.get?_put_self _ _ _).symm.trans found
    exact ⟨hosted, held, rfl, rfl, tidy⟩
  · have found := (Entries.get?_put_ne same _ _).symm.trans found
    exact ⟨now, found, rfl, rfl, (keeps.hosts _ _ found).tidy⟩

theorem Keeps.joined (keeps : hub.Keeps ss) (held : hub.hosted.get? id = some hosted)
    (e : EndpointId) (carrier : τ) (tally : HubTally) :
    (hub.joined id e hosted carrier tally).Keeps ss :=
  (keeps.subscribers held ((keeps.hosts _ _ held).tidy.add e)).carry carrier tally

section Carried

variable [Carrier τ] {event : Event} {body : Octets}

theorem Keeps.published (keeps : hub.Keeps ss)
    (takes : hub.Takes id event hosted o after body) (keyed : event.WellKeyed)
    (few : hosted.last.toNat + 1 < UInt64.size) (tally : HubTally) :
    (hub.published id hosted after event body tally).Keeps
      (ss.adding hosted.handle event after.values) where
  valid := Stories.valid_adding keeps.valid (keeps.ends takes.held takes.shared).2 takes.applied
    keyed
  length_eq := by simp [Stories.adding, Hub.published, keeps.length_eq]
  hosts := fun other now held => by
    rw [published_hosted] at held
    split at held
    · rename_i same
      subst same
      cases held
      have old := keeps.hosts other hosted takes.held
      have next := Seq.toNat_next (a := hosted.last) few
      obtain ⟨named, ends⟩ := keeps.ends takes.held takes.shared
      refine ⟨⟨after, ?_, ?_, ?_⟩, old.tidy⟩
      · simp [published_objectAt takes]
      · rw [SharedObject.apply_eq takes.applied]
        exact named
      · rw [next]
        exact (ends.adding takes.applied).1
    · rename_i different
      have old := keeps.hosts other now held
      obtain ⟨p, at_, named, ends⟩ := old.shared
      have apart := keeps.handle_ne takes.held held different
      refine ⟨⟨p, ?_, named, ends.adding_other apart.symm _ _⟩, old.tidy⟩
      rw [published_objectAt takes, if_neg apart]
      exact at_

theorem Keeps.leaving (keeps : hub.Keeps ss) (held : hub.hosted.get? id = some hosted)
    (now : Instant) (o : SharedObject) (tally : HubTally) :
    (hub.leaving now id hosted o tally).Keeps ss where
  valid := keeps.valid
  length_eq := by simp [Hub.leaving, keeps.length_eq]
  hosts := fun other now found => by
    have found := (Entries.get?_erase id other hub.hosted).symm.trans found
    split at found
    · cases found
    · rename_i different
      have old := keeps.hosts other now found
      obtain ⟨p, at_, rest⟩ := old.shared
      have apart := keeps.handle_ne held found different
      refine ⟨⟨p, ?_, rest⟩, old.tidy⟩
      have : hosted.handle.place ≠ now.handle.place := fun same =>
        apart (Handle.mk.injEq _ _ ▸ same.symm)
      simp only [objectAt?, Hub.leaving, List.getElem?_set_ne this]
      exact at_

end Carried

end Hub

end SharedObjects
