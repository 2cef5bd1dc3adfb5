import SharedObjects.Proofs.Cluster.Operations
import SharedObjects.Proofs.Cluster.Owing
import SharedObjects.Proofs.Cluster.Pumping
import SharedObjects.Proofs.Cluster.Sending
/-!
The invariant of a run: the hub keeps to the stories of its objects, and every endpoint has and is
sent what it should expect. Each thing that can happen to a cluster preserves it.
-/
set_option autoImplicit false

namespace SharedObjects

namespace Chronicle

variable {t : Chronicle} {id : ObjectId} {e : EndpointId} {hosted : Hosted}
  {o after : SharedObject} {body : Octets} {event : Event}

theorem step_subscribe {carrier : Link} (shows : t.cluster.hub.Shows id hosted o body)
    (sent : Carrier.send e (Message.snapshot id hosted.last body).wire t.cluster.hub.carrier =
      (.ok (), carrier)) :
    ∃ tally, t.step (.subscribe e id) = { t with
      cluster := { t.cluster with hub := t.cluster.hub.joined id e hosted carrier tally }
      views := Function.update t.views e
        ((t.views e).snapshot id hosted.handle carrier.faults.duplicates) } := by
  obtain ⟨tally, step⟩ := Hub.subscribe_ok shows sent
  have acted := Cluster.act_ok step
  have held := Entries.get?_put_self id
    { hosted with subscribers := (hosted.subscribers.add e).2 } t.cluster.hub.hosted
  exact ⟨tally, by simp only [Chronicle.step, Cluster.subscribe, acted, Hub.joined, held]⟩

theorem published_post (takes : t.cluster.hub.Takes event.object event hosted o after body) :
    ∃ tally, t.published event (t.cluster.post event) = { t with
      cluster := { t.cluster with
        hub := t.cluster.hub.published event.object hosted after event body tally }
      stories := Stories.adding t.stories hosted.handle event after.values
      views := fun e =>
        if hosted.subscribers.contains e then
          (t.views e).event event.object (t.cluster.hub.carrier.refusing.contains e)
        else t.views e } := by
  obtain ⟨report, tally, posted⟩ := Hub.post_ok takes
  have acted := Cluster.act_ok posted
  have held : (t.cluster.hub.published event.object hosted after event body tally).hosted.get?
      event.object = some { hosted with last := hosted.last.next } := Entries.get?_put_self _ _ _
  have shared : (t.cluster.hub.published event.object hosted after event body tally).object?
      event.object = some after := by
    rw [Hub.object?_eq held, Hub.published_objectAt takes, if_pos rfl]
  refine ⟨tally, ?_⟩
  simp only [Cluster.post, acted, published, held, shared]
  rfl

theorem step_pump (distinct : t.cluster.clients.Distinct) : ∃ after drained pumped,
    Cluster.Pumps t.cluster.clients t.cluster.hub.carrier .nothing after drained pumped ∧
    t.step .pump = { t with
      cluster := { t.cluster with
        hub := { t.cluster.hub with carrier := drained }
        clients := after }
      views := fun e =>
        if t.cluster.clients.contains e then
          (t.views e).pumped (Cluster.updatesTo e pumped.updates)
        else t.views e
      updates := t.updates ++ pumped.updates } := by
  obtain ⟨after, drained, pumped, step, spec⟩ :=
    Cluster.pumpClients_spec distinct t.cluster.hub.carrier .nothing
  refine ⟨after, drained, pumped, spec, ?_⟩
  simp only [Chronicle.step, Cluster.pump, step]
  rfl

/-- So many clients were added, and no two were given one number. -/
structure Numbered (clients : Entries EndpointId Follower) (next : UInt64) (added : Nat) :
    Prop where
  distinct : clients.Distinct
  next : next = UInt64.ofNat (added + 1)
  given : ∀ e, clients.contains e = true → e.number.toNat ≤ added

namespace Numbered

variable {clients : Entries EndpointId Follower} {next : UInt64} {added : Nat}

theorem toNat_next (numbered : Numbered clients next added) (few : added + 1 < UInt64.size) :
    next.toNat = added + 1 := by
  rw [numbered.next, UInt64.toNat_ofNat']
  exact Nat.mod_eq_of_lt (by simpa only [UInt64.size] using few)

theorem missing (numbered : Numbered clients next added) (few : added + 1 < UInt64.size) :
    clients.get? ⟨next⟩ = none := by
  by_contra there
  have le := numbered.given ⟨next⟩
    (by simpa [Entries.contains, Option.isSome_iff_ne_none] using there)
  have number := numbered.toNat_next few
  dsimp only at le
  omega

theorem put (numbered : Numbered clients next added) (few : added + 1 < UInt64.size)
    (f : Follower) : Numbered (clients.put ⟨next⟩ f) (next + 1) (added + 1) where
  distinct := numbered.distinct.put _
  next := by
    rw [numbered.next]
    simp
  given := by
    intro e there
    by_cases new : e = ⟨next⟩
    · rw [new]
      exact Nat.le_of_eq (numbered.toNat_next few)
    · rw [Entries.contains, Entries.get?_put_ne new] at there
      exact Nat.le_succ_of_le (numbered.given e there)

theorem erase (numbered : Numbered clients next added) (e : EndpointId) :
    Numbered (clients.erase e) next added where
  distinct := numbered.distinct.erase e
  next := numbered.next
  given := by
    intro other there
    rw [Entries.contains, Entries.get?_erase] at there
    split at there
    · cases there
    · exact numbered.given other there

theorem of_keys {after : Entries EndpointId Follower} (numbered : Numbered clients next added)
    (keys : after.keys = clients.keys) : Numbered after next added where
  distinct := by
    have distinct := numbered.distinct
    unfold Entries.Distinct at distinct ⊢
    rwa [keys]
  next := numbered.next
  given := fun e there =>
    numbered.given e (Entries.mem_keys_iff.mp (keys ▸ Entries.mem_keys_iff.mpr there))

end Numbered

/-- All is as it should be after so many clients were added. -/
structure Agrees (c : Catalog) (faults : LinkFaults) (added : Nat) (t : Chronicle) : Prop where
  catalog : t.cluster.hub.catalog = c
  faults : t.cluster.hub.carrier.faults = faults
  keeps : t.cluster.hub.Keeps t.stories
  numbered : Numbered t.cluster.clients t.cluster.nextEndpoint added
  expects : ∀ e, ∃ ps, Expects c t.stories t.cluster.hub.carrier.faults.jump
    (t.cluster.hub.owed e) (t.views e) (t.cluster.clients.get? e)
    (t.cluster.hub.carrier.queue e) ps
  clean : ∀ e update, (e, update) ∈ t.updates → Clean update

theorem agrees_start (c : Catalog) (config : HubConfig) (faults : LinkFaults) :
    (start c config faults).Agrees c faults 0 where
  catalog := rfl
  faults := rfl
  keeps := ⟨nofun, rfl, nofun⟩
  numbered := ⟨List.nodup_nil, rfl, nofun⟩
  expects := fun _ => ⟨[], .nothing c [] faults.jump⟩
  clean := nofun

variable {c : Catalog} {faults : LinkFaults} {added : Nat}

theorem Agrees.host (agrees : t.Agrees c faults added) (reachable : c.Reachable) (now : Instant)
    (type : String) {fields : List (UInt16 × Value)} (keyed : ∀ f ∈ fields, f.2.WellKeyed) :
    (t.step (.host now type fields)).Agrees c faults added := by
  have known : t.cluster.hub.catalog.Reachable := by rwa [agrees.catalog]
  obtain ⟨fault, step⟩ | ⟨id, o, identifiers, tally, fresh, step⟩ :=
    Cluster.host_cases known now type keyed
  · simp only [Chronicle.step, step]
    exact agrees
  · have keeps := agrees.keeps.hosting fresh id identifiers tally
    have shared : (t.cluster.hub.hosting id o identifiers tally).object? id =
        some { o with id := id, stage := .live } := by
      rw [Hub.object?_eq (Entries.get?_put_self _ _ _)]
      simp [Hub.objectAt?, Hub.hosting]
    simp only [Chronicle.step, step, shared, Option.toList_some, List.map_cons, List.map_nil]
    refine ⟨agrees.catalog, agrees.faults, keeps, agrees.numbered, fun e => ?_,
      agrees.clean⟩
    obtain ⟨ps, expects⟩ := agrees.expects e
    refine ⟨ps, (expects.grow (Stories.grow_append _ _)).reown fun other => ?_⟩
    rw [Hub.owed_hosting]
    split
    · exact .inr rfl
    · exact .inl rfl

theorem Agrees.addClient (agrees : t.Agrees c faults added)
    (few : added + 1 < UInt64.size) : (t.step .addClient).Agrees c faults (added + 1) := by
  refine ⟨agrees.catalog, agrees.faults, agrees.keeps, agrees.numbered.put few _, fun e => ?_,
    agrees.clean⟩
  obtain ⟨ps, expects⟩ := agrees.expects e
  simp only [Chronicle.step, Cluster.addClient]
  by_cases new : e = ⟨t.cluster.nextEndpoint⟩
  · subst new
    rw [agrees.numbered.missing few] at expects
    rw [Entries.get?_put_self, agrees.catalog]
    exact ⟨ps, expects.attach⟩
  · rw [Entries.get?_put_ne new]
    exact ⟨ps, expects⟩

theorem Agrees.disconnect (agrees : t.Agrees c faults added) (e : EndpointId) :
    (t.step (.disconnect e)).Agrees c faults added := by
  have without (id : ObjectId) := Hub.get?_hosted_without t.cluster.hub.hosted e id
  have keeps : (t.step (.disconnect e)).cluster.hub.Keeps t.stories := by
    refine agrees.keeps.rehosted rfl rfl fun id now held => ?_
    obtain ⟨hosted, before, rfl⟩ := Option.map_eq_some_iff.mp ((without id).symm.trans held)
    exact ⟨hosted, before, rfl, rfl,
      (agrees.keeps.hosts id hosted before).tidy.remove e⟩
  refine ⟨agrees.catalog, agrees.faults, keeps, agrees.numbered.erase e, fun other => ?_,
    agrees.clean⟩
  have owed (id : ObjectId) : (t.step (.disconnect e)).cluster.hub.owed other id =
      if other = e then none else t.cluster.hub.owed other id := Hub.owed_without without
  have queue : (t.step (.disconnect e)).cluster.hub.carrier.queue other =
      if other = e then [] else t.cluster.hub.carrier.queue other := Link.queue_drain _ _ _
  have client : (t.step (.disconnect e)).cluster.clients.get? other =
      if other = e then none else t.cluster.clients.get? other := Entries.get?_erase _ _ _
  have view : (t.step (.disconnect e)).views other =
      if other = e then .new else t.views other := by
    simp only [Chronicle.step, Function.update_apply]
  rw [queue, client, view]
  by_cases same : other = e
  · subst same
    simp only [if_true]
    exact ⟨[], (Expects.nothing c _ _).reown fun id => .inr ((owed id).trans (if_pos rfl))⟩
  · simp only [same, if_false]
    obtain ⟨ps, expects⟩ := agrees.expects other
    exact ⟨ps, expects.reown fun id => .inl ((owed id).trans (if_neg same))⟩

def carrying (t : Chronicle) (carrier : Link) (tally : HubTally) : Chronicle :=
  { t with cluster := { t.cluster with
      hub := { t.cluster.hub with carrier := carrier, tally := tally } } }

theorem Agrees.carry (agrees : t.Agrees c faults added) {carrier : Link}
    (same : carrier.faults = t.cluster.hub.carrier.faults)
    (expects : ∀ e, ∃ ps, Expects c t.stories carrier.faults.jump (t.cluster.hub.owed e)
      (t.views e) (t.cluster.clients.get? e) (carrier.queue e) ps) (tally : HubTally) :
    (t.carrying carrier tally).Agrees c faults added :=
  ⟨agrees.catalog, same.trans agrees.faults, agrees.keeps.carry carrier tally,
    agrees.numbered, expects, agrees.clean⟩

theorem Agrees.refused (agrees : t.Agrees c faults added) {carrier : Link}
    (same : carrier.faults = t.cluster.hub.carrier.faults)
    (queues : ∀ e, carrier.queue e = t.cluster.hub.carrier.queue e) (tally : HubTally) :
    (t.carrying carrier tally).Agrees c faults added :=
  agrees.carry same (fun e => by
    rw [same, queues e]
    exact agrees.expects e) tally

theorem Agrees.setRefusing (agrees : t.Agrees c faults added) (e : EndpointId) (refusing : Bool) :
    (t.step (.setRefusing e refusing)).Agrees c faults added :=
  @Agrees.refused t c faults added agrees (t.cluster.hub.carrier.setRefusing e refusing) rfl
    (fun _ => rfl) t.cluster.hub.tally

theorem Agrees.told (agrees : t.Agrees c faults added) {carrier : Link} {bytes : Octets}
    (carried : Parcel.Carries c t.stories bytes (id, none))
    (sent : Link.Sent bytes [e] t.cluster.hub.carrier carrier) (tally : HubTally) :
    (t.carrying carrier tally).Agrees c faults added := by
  refine agrees.carry sent.faults (fun other => ?_) tally
  obtain ⟨ps, expects⟩ := agrees.expects other
  rw [← sent.faults] at expects
  by_cases reached : other ∈ [e] ∧ other ∉ t.cluster.hub.carrier.refusing
  · exact expects.notice (sent.joins other reached.1 reached.2) carried
  · rw [sent.rest other (by tauto)]
    exact ⟨ps, expects⟩

theorem Agrees.subscribe (agrees : t.Agrees c faults added) (e : EndpointId) (id : ObjectId) :
    (t.step (.subscribe e id)).Agrees c faults added := by
  rcases Hub.subscribe_cases id e t.cluster.hub with missing | ⟨fault, step⟩ |
    ⟨hosted, o, body, fault, carrier, shows, refused⟩ | ⟨hosted, o, body, carrier, shows, sent⟩
  · have acted := Cluster.act_error (Hub.subscribe_missing e missing)
    simp only [Chronicle.step, Cluster.subscribe, acted]
    exact agrees.told (.notice (Message.fits_refusal id)) (Link.send_spec _ _ _).1 _
  · simp only [Chronicle.step, Cluster.subscribe, Cluster.act_error step]
    exact agrees
  · have acted := Cluster.act_error (Hub.subscribe_refused shows refused)
    simp only [Chronicle.step, Cluster.subscribe, acted]
    obtain ⟨spec, refusing⟩ := Link.sent_of_error refused
    refine agrees.refused spec.faults (fun other => spec.rest other ?_) _
    by_cases same : other = e
    · exact .inr (same ▸ refusing)
    · exact .inl (by simpa using same)
  · obtain ⟨spec, accepts⟩ := Link.sent_of_ok sent
    obtain ⟨tally, stepped⟩ := step_subscribe shows sent
    have owed (other : EndpointId) (otherId : ObjectId) :=
      @Hub.owed_joined _ _ _ e other id otherId shows.held carrier tally
    rw [stepped]
    refine ⟨agrees.catalog, spec.faults.trans agrees.faults,
      agrees.keeps.joined shows.held e carrier tally, agrees.numbered,
      fun other => ?_, agrees.clean⟩
    obtain ⟨ps, expects⟩ := agrees.expects other
    rw [← spec.faults] at expects
    -- A snapshot starts the endpoint's account afresh, whatever it still waits for.
    by_cases same : other = e
    · subst same
      obtain ⟨named, ends⟩ := agrees.keeps.ends shows.held shows.shared
      subst named
      have written : o.snapshot c = .ok body := by
        rw [← agrees.catalog]
        exact shows.written
      have joins := spec.joins other (by simp) accepts
      rw [← spec.faults] at joins
      simp only [Function.update_self]
      exact expects.snapshot joins ends.tells written (by simp [owed])
        fun otherId different => by simp [owed, different]
    · simp only [Function.update_of_ne same]
      rw [← spec.rest other (.inl (by simpa using same))] at expects
      exact ⟨ps, expects.reown fun otherId => .inl (by simp [owed, same])⟩

theorem Agrees.unsubscribe (agrees : t.Agrees c faults added) (e : EndpointId) (id : ObjectId) :
    (t.step (.unsubscribe e id)).Agrees c faults added := by
  rcases Hub.unsubscribe_cases id e t.cluster.hub with ⟨missing, step⟩ | ⟨hosted, held, step⟩
  · have acted := Cluster.act_ok step
    simp only [Chronicle.step, acted]
    exact agrees
  · have acted := Cluster.act_ok step
    simp only [Chronicle.step, acted]
    have tidy := (agrees.keeps.hosts _ _ held).tidy.remove e
    refine ⟨agrees.catalog, agrees.faults, agrees.keeps.subscribers held tidy, agrees.numbered,
      fun other => ?_, agrees.clean⟩
    obtain ⟨ps, expects⟩ := agrees.expects other
    refine ⟨ps, expects.reown fun otherId => ?_⟩
    rw [Hub.owed_unsubscribed held]
    split
    · exact .inr rfl
    · exact .inl rfl

theorem Agrees.sent_event (agrees : t.Agrees c faults added)
    (takes : t.cluster.hub.Takes event.object event hosted o after body) (tally : HubTally) :
    Link.Sent (Message.event hosted.last.next body).wire hosted.subscribers.endpoints
      t.cluster.hub.carrier
      (t.cluster.hub.published event.object hosted after event body tally).carrier := by
  have tidy := (agrees.keeps.hosts _ _ takes.held).tidy
  rw [Hub.published, tidy.active_eq]
  exact Link.sendAll_spec tidy.distinct _ _

/-- Who took an event is owed it, and who refused it is owed it all the same. -/
theorem Agrees.expects_published (agrees : t.Agrees c faults added)
    (takes : t.cluster.hub.Takes event.object event hosted o after body)
    (few : hosted.last.toNat + 1 < UInt64.size) (tally : HubTally) (e : EndpointId) :
    ∃ ps, Expects c (Stories.adding t.stories hosted.handle event after.values)
      (t.cluster.hub.published event.object hosted after event body tally).carrier.faults.jump
      ((t.cluster.hub.published event.object hosted after event body tally).owed e)
      (if hosted.subscribers.contains e then
          (t.views e).event event.object (t.cluster.hub.carrier.refusing.contains e)
        else t.views e) (t.cluster.clients.get? e)
      ((t.cluster.hub.published event.object hosted after event body tally).carrier.queue e)
      ps := by
  have next : hosted.last.next.toNat = hosted.last.toNat + 1 := Seq.toNat_next few
  have spec := agrees.sent_event takes tally
  have owed (other : ObjectId) :=
    @Hub.owed_published _ t.cluster.hub hosted e event.object other _ after event body tally
  have elsewhere (other : ObjectId) (different : other ≠ event.object) :=
    (owed other).trans (if_neg different)
  have before := @Hub.owed_of_hosted _ _ _ e _ takes.held
  have now := (owed event.object).trans (if_pos rfl)
  obtain ⟨ps, expects⟩ := agrees.expects e
  have expects := expects.grow (Stories.grow_adding t.stories hosted.handle event after.values)
  rw [← spec.faults] at expects
  by_cases there : e ∈ hosted.subscribers.endpoints
  · have contains : hosted.subscribers.contains e = true := by
      simpa [Subscribers.contains] using there
    rw [if_pos there] at before now
    rw [next] at now
    simp only [contains, if_true]
    by_cases refuses : e ∈ t.cluster.hub.carrier.refusing
    · have refusing : t.cluster.hub.carrier.refusing.contains e = true := by simpa using refuses
      rw [refusing]
      rw [← spec.rest e (.inr refuses)] at expects
      exact ⟨ps, expects.miss before now elsewhere⟩
    · have accepting : t.cluster.hub.carrier.refusing.contains e = false := by
        simpa using refuses
      rw [accepting]
      have encoded : event.encode c = .ok body := by
        rw [← agrees.catalog]
        exact takes.encoded
      have ends := (agrees.keeps.ends takes.held takes.shared).2
      have reports := (ends.adding takes.applied).2
      rw [← next] at reports
      have joins := spec.joins e there refuses
      rw [← spec.faults] at joins
      exact expects.event joins reports encoded next before now elsewhere
  · have absent : hosted.subscribers.contains e = false := by
      simpa [Subscribers.contains] using there
    rw [if_neg there] at now
    simp only [absent, Bool.false_eq_true, if_false]
    rw [← spec.rest e (.inl there)] at expects
    refine ⟨ps, expects.reown fun other => ?_⟩
    by_cases same : other = event.object
    · exact .inr (same ▸ now)
    · exact .inl (elsewhere other same)

theorem Agrees.publish (agrees : t.Agrees c faults added) {event : Event} (keyed : event.WellKeyed)
    (short : ∀ s ∈ (t.published event (t.cluster.post event)).stories,
      s.events.length < UInt64.size) :
    (t.published event (t.cluster.post event)).Agrees c faults added := by
  obtain ⟨fault, step⟩ | ⟨hosted, o, after, body, report, tally, takes, step⟩ :=
    Cluster.post_cases event t.cluster
  · rw [step]
    exact agrees
  · obtain ⟨tally, stepped⟩ := published_post takes
    rw [stepped] at short ⊢
    have ends := (agrees.keeps.ends takes.held takes.shared).2
    obtain ⟨⟨s, at_, length, _⟩, _⟩ := ends.adding takes.applied
    -- The story is as long as the event's number is high, and it is not too long.
    have few : hosted.last.toNat + 1 < UInt64.size := by
      rw [← length]
      exact short s (List.mem_of_getElem? at_)
    exact ⟨agrees.catalog, (agrees.sent_event takes tally).faults.trans agrees.faults,
      agrees.keeps.published takes keyed few tally, agrees.numbered,
      agrees.expects_published takes few tally, agrees.clean⟩

theorem Agrees.forward (agrees : t.Agrees c faults added) (reachable : c.Reachable) {event : Event}
    (keyed : event.WellKeyed)
    (short : ∀ s ∈ (t.step (.forward event)).stories, s.events.length < UInt64.size) :
    (t.step (.forward event)).Agrees c faults added := by
  have known : t.cluster.hub.catalog.Reachable := by rwa [agrees.catalog]
  simp only [Chronicle.step] at short ⊢
  rcases Cluster.forward_cases known keyed with ⟨fault, step⟩ | step
  · rw [step]
    exact agrees
  · rw [step] at short ⊢
    exact agrees.publish keyed short

theorem Agrees.unregister (agrees : t.Agrees c faults added) (now : Instant) (id : ObjectId) :
    (t.step (.unregister now id)).Agrees c faults added := by
  obtain ⟨fault, step⟩ | ⟨hosted, o, report, tally, held, _, _, step⟩ :=
    Hub.unregister_cases now id t.cluster.hub
  · have acted := Cluster.act_error step
    simp only [Chronicle.step, acted]
    exact agrees
  · have acted := Cluster.act_ok step
    simp only [Chronicle.step, acted]
    have distinct := (agrees.keeps.hosts _ _ held).tidy.distinct
    have spec := Link.sendAll_spec distinct (Message.removed id).wire t.cluster.hub.carrier
    refine ⟨agrees.catalog, spec.faults.trans agrees.faults,
      agrees.keeps.leaving held now o tally, agrees.numbered, fun e => ?_, agrees.clean⟩
    obtain ⟨ps, expects⟩ := agrees.expects e
    rw [← spec.faults] at expects
    have owed (other : ObjectId) : (t.cluster.hub.leaving now id hosted o tally).owed e other =
        if other = id then none else t.cluster.hub.owed e other := Hub.owed_leaving now o tally
    by_cases reached : e ∈ hosted.subscribers.endpoints ∧ e ∉ t.cluster.hub.carrier.refusing
    · have joins := spec.joins e reached.1 reached.2
      rw [← spec.faults] at joins
      exact expects.gone joins ((owed id).trans (if_pos rfl)) fun other different =>
        (owed other).trans (if_neg different)
    · rw [← spec.rest e (by tauto)] at expects
      refine ⟨ps, expects.reown fun other => ?_⟩
      rw [owed]
      split
      · exact .inr rfl
      · exact .inl rfl

theorem Agrees.valid (agrees : t.Agrees c faults added) : ∀ s ∈ t.stories, s.Valid c := by
  rw [← agrees.catalog]
  exact agrees.keeps.valid

theorem Agrees.clean_of_pumps (agrees : t.Agrees c faults added) (reachable : c.Reachable)
    {after : Entries EndpointId Follower} {drained : Link} {pumped : Pumped}
    (pumps : Cluster.Pumps t.cluster.clients t.cluster.hub.carrier .nothing after drained pumped)
    {e : EndpointId} {update : Update} (mem : (e, update) ∈ pumped.updates) : Clean update := by
  have mem := Cluster.mem_updatesTo.mpr mem
  rw [pumps.updates] at mem
  cases there : t.cluster.clients.get? e with
  | none =>
    rw [there] at mem
    cases mem
  | some f =>
    rw [there] at mem
    obtain ⟨ps, expects⟩ := agrees.expects e
    rw [there] at expects
    exact (expects.receiveAll reachable agrees.valid).2 update mem

theorem Agrees.pump (agrees : t.Agrees c faults added) (reachable : c.Reachable) :
    (t.step .pump).Agrees c faults added := by
  obtain ⟨after, drained, pumped, pumps, stepped⟩ := step_pump agrees.numbered.distinct
  rw [stepped]
  refine ⟨agrees.catalog, pumps.faults.trans agrees.faults, agrees.keeps.carry drained _,
    agrees.numbered.of_keys pumps.keys, fun e => ?_, fun e update mem => ?_⟩
  · obtain ⟨ps, expects⟩ := agrees.expects e
    rw [← pumps.faults] at expects
    dsimp only
    rw [pumps.received, pumps.queues, pumps.updates]
    cases there : t.cluster.clients.get? e with
    | none =>
      have absent : t.cluster.clients.contains e = false := by simp [Entries.contains, there]
      rw [there] at expects
      simp only [absent, Bool.false_eq_true, if_false, Option.map_none]
      exact ⟨ps, expects⟩
    | some f =>
      have present : t.cluster.clients.contains e = true := by simp [Entries.contains, there]
      rw [there] at expects
      obtain ⟨done, _⟩ := expects.receiveAll reachable agrees.valid
      simp only [present, if_true, Option.map_some]
      exact ⟨[], done.emptied⟩
  · rcases List.mem_append.mp mem with old | new
    · exact agrees.clean e update old
    · exact agrees.clean_of_pumps reachable pumps new

theorem grow_published (t : Chronicle) (event : Event) (result : Except Fault Report × Cluster) :
    Stories.Grow t.stories (t.published event result).stories := by
  obtain ⟨fault | report, cluster⟩ := result
  · exact .refl _
  · simp only [published]
    split
    · exact Stories.grow_adding _ _ _ _
    · exact .refl _

theorem grow_step (t : Chronicle) (step : ClusterStep) :
    Stories.Grow t.stories (t.step step).stories := by
  cases step with
  | host now type fields =>
    simp only [Chronicle.step]
    split
    · exact .refl _
    · exact Stories.grow_append _ _
  | subscribe e id =>
    simp only [Chronicle.step]
    split
    · exact .refl _
    · split <;> exact .refl _
  | post event => exact t.grow_published event _
  | forward event => exact t.grow_published event _
  | addClient | disconnect | unsubscribe | unregister | setRefusing | pump => exact .refl _

theorem grow_run (t : Chronicle) (steps : List ClusterStep) :
    Stories.Grow t.stories (t.run steps).stories := by
  induction steps generalizing t with
  | nil => exact .refl _
  | cons step steps ih => exact (t.grow_step step).trans (ih (t.step step))

theorem Agrees.step (agrees : t.Agrees c faults added) (reachable : c.Reachable)
    {step : ClusterStep} (keyed : step.WellKeyed)
    (short : ∀ s ∈ (t.step step).stories, s.events.length < UInt64.size)
    (few : added + [step].countP ClusterStep.addsClient < UInt64.size) :
    (t.step step).Agrees c faults (added + [step].countP ClusterStep.addsClient) := by
  cases step with
  | host now type fields => exact agrees.host reachable now type keyed
  | addClient => exact agrees.addClient few
  | disconnect e => exact agrees.disconnect e
  | subscribe e id => exact agrees.subscribe e id
  | unsubscribe e id => exact agrees.unsubscribe e id
  | post event => exact agrees.publish keyed short
  | forward event => exact agrees.forward reachable keyed short
  | unregister now id => exact agrees.unregister now id
  | setRefusing e refusing => exact agrees.setRefusing e refusing
  | pump => exact agrees.pump reachable

theorem Agrees.run (agrees : t.Agrees c faults added) (reachable : c.Reachable)
    {steps : List ClusterStep} (keyed : ∀ step ∈ steps, step.WellKeyed)
    (short : ∀ s ∈ (t.run steps).stories, s.events.length < UInt64.size)
    (few : added + steps.countP ClusterStep.addsClient < UInt64.size) :
    (t.run steps).Agrees c faults (added + steps.countP ClusterStep.addsClient) := by
  induction steps generalizing t added with
  | nil => exact agrees
  | cons step steps ih =>
    have counts : (step :: steps).countP ClusterStep.addsClient =
        [step].countP ClusterStep.addsClient + steps.countP ClusterStep.addsClient := by
      rw [← List.countP_append, List.singleton_append]
    rw [counts, ← Nat.add_assoc] at few ⊢
    -- Stories only grow, so none is too long on the way if none is at the end.
    have shorter := ((t.step step).grow_run steps).shorter short
    exact ih (agrees.step reachable (keyed step (by simp)) shorter (by omega))
      (fun s mem => keyed s (by simp [mem])) short few

end Chronicle

end SharedObjects
