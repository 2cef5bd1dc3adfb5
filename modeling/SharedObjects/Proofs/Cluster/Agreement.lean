import SharedObjects.Proofs.Cluster.Steps
import SharedObjects.Proofs.Hub.Subscribable
import SharedObjects.Proofs.Value.Equality
/-!
What holds of every run of a cluster. Whatever is lost, repeated or overtaken on the way, a replica
holds what its object held at some point of its life; and it holds what the object holds now after a
pump, if nothing was refused that it needs and not too much arrives out of order.
-/
set_option autoImplicit false

namespace SharedObjects.Chronicle

variable {c : Catalog} {config : HubConfig} {faults : LinkFaults} {steps : List ClusterStep}
  {t : Chronicle} {e : EndpointId} {id : ObjectId} {hosted : Hosted}

theorem accounts_pumped (v : View) (updates : List Update) (id : ObjectId) :
    (v.pumped updates).accounts id = (v.accounts id).emptied := by
  have kept : (updates.foldl View.observe v).accounts = v.accounts := by
    induction updates generalizing v with
    | nil => rfl
    | cons update updates ih =>
      rw [List.foldl_cons, ih]
      unfold View.observe
      repeat' split
      all_goals rfl
  simp [View.pumped, kept]

theorem Counted.agrees (counted : t.Counted steps) (reachable : c.Reachable)
    (keyed : ∀ step ∈ steps, step.WellKeyed) (ran : t = (start c config faults).run steps) :
    t.Agrees c faults (steps.countP ClusterStep.addsClient) := by
  subst ran
  have agrees := (agrees_start c config faults).run reachable keyed counted.events
    (by simpa using counted.clients)
  rwa [Nat.zero_add] at agrees

theorem pump_keeps (distinct : t.cluster.clients.Distinct) (e : EndpointId) (id : ObjectId) :
    (t.step .pump).cluster.hub.hosted = t.cluster.hub.hosted ∧
      (t.step .pump).cluster.clients.contains e = t.cluster.clients.contains e ∧
      (t.cluster.clients.contains e = true →
        (t.step .pump).cluster.hub.carrier.queue e = [] ∧
        ((t.step .pump).views e).accounts id = ((t.views e).accounts id).emptied) := by
  obtain ⟨after, drained, pumped, spec, stepped⟩ := step_pump distinct
  rw [stepped]
  refine ⟨rfl, ?_, fun client => ⟨(spec.queues e).trans (if_pos client), ?_⟩⟩
  · simp [Entries.contains, spec.received]
  · simp only [client, if_true, accounts_pumped]

/-- A replica whose endpoint lacks nothing has come to the end of the story after a pump. -/
theorem Agrees.upToDate_of_pump {added : Nat} (agrees : t.Agrees c faults added)
    (reachable : c.Reachable) (held : (t.step .pump).cluster.hub.hosted.get? id = some hosted)
    (subscribed : hosted.subscribers.contains e = true)
    (connected : (t.step .pump).cluster.clients.contains e = true)
    (sound : (((t.step .pump).views e).accounts id).Dependable faults.jump) :
    ∃ f r, (t.step .pump).cluster.clients.get? e = some f ∧ f.replicas.get? id = some r ∧
      Follows (t.step .pump).stories id hosted.handle r ∧
      r.sequencer.last.toNat = hosted.last.toNat ∧ r.sequencer.pending = [] := by
  obtain ⟨-, clients, emptied⟩ := pump_keeps agrees.numbered.distinct e id
  have idle := (emptied (clients ▸ connected)).1
  have after := agrees.pump reachable
  obtain ⟨f, client⟩ := Entries.contains_iff.mp connected
  obtain ⟨ps, expects⟩ := after.expects e
  have strand := expects.strands id
  obtain rfl : ps = [] := by
    have carries := expects.carries
    rw [idle] at carries
    cases carries
    rfl
  have owed : (t.step .pump).cluster.hub.owed e id =
      some (hosted.handle, hosted.last.toNat) := by
    rw [Hub.owed_of_hosted held, if_pos (by simpa [Subscribers.contains] using subscribed)]
  rw [owed, after.faults, client] at strand
  obtain ⟨r, there, rest⟩ := strand.upToDate sound
  exact ⟨f, r, client, there, rest⟩

/-! ### A log

It is hosted and subscribed to, and its entry is replaced. -/

def logFaults : LinkFaults := ⟨1, true⟩

def logEvent : Event := ⟨⟨1⟩, 0, .listSet 0 (.tower 2)⟩

def logSteps : List ClusterStep :=
  [.host ⟨0⟩ "Log" [(0, .list [.null])], .addClient, .subscribe ⟨1⟩ ⟨1⟩, .post logEvent]

def logCluster : Cluster :=
  ⟨.hosting (.new logCatalog (.new logFaults) .testing) ⟨1⟩
    { logOf .null with id := .none, stage := .unregistered } ⟨2, [], 0⟩ ⟨1, 0, 0, 0, 0, 0⟩,
    [(⟨1⟩, .new logCatalog .default)], 2⟩

theorem reachable_log : logCatalog.Reachable := .register .initial register_log

theorem wellKeyed_log : ∀ step ∈ logSteps, step.WellKeyed := by
  intro step mem
  simp only [logSteps, List.mem_cons, List.not_mem_nil, or_false] at mem
  rcases mem with rfl | rfl | rfl | rfl
  · intro f mem
    obtain rfl := List.mem_singleton.mp mem
    decide
  · trivial
  · trivial
  · intro v mem
    obtain rfl := List.mem_singleton.mp mem
    decide

theorem run_host_log : (start logCatalog .testing logFaults).run
      [.host ⟨0⟩ "Log" [(0, .list [.null])], .addClient] =
    ⟨logCluster, [⟨logOf .null, []⟩], fun _ => .new, []⟩ := by
  have hosted : (Cluster.new logCatalog .testing logFaults).host ⟨0⟩ "Log" [(0, .list [.null])] =
      (.ok ⟨1⟩, { Cluster.new logCatalog .testing logFaults with hub := logCluster.hub }) := by
    refine Cluster.act_ok ?_
    rw [Attempt.get_bind]
    exact Attempt.bind_ok (Attempt.demand_ok make_log _)
  simp only [run, List.foldl_cons, List.foldl_nil, Chronicle.step, start, hosted]
  rfl

theorem run_log : ∃ t, t = (start logCatalog .testing logFaults).run logSteps ∧
    t.stories = [⟨logOf .null, [(logEvent, [.list [.tower 2]])]⟩] ∧
    t.cluster.hub.hosted.get? ⟨1⟩ = some ⟨⟨0⟩, ⟨[⟨⟨1⟩, 0⟩], #[true]⟩, ⟨1⟩⟩ ∧
    t.cluster.clients = logCluster.clients ∧ (t.views ⟨1⟩).accounts ⟨1⟩ = ⟨false, 1, 1⟩ := by
  obtain ⟨body, shown⟩ := shows_log
  obtain ⟨event, taken⟩ := @takes_tower 2 (by decide)
  have shows : logCluster.hub.Shows ⟨1⟩ ⟨⟨0⟩, .none, .zero⟩ (logOf .null) body :=
    ⟨rfl, rfl, rfl, shown.written⟩
  obtain ⟨tally, third⟩ := @step_subscribe ⟨logCluster, [⟨logOf .null, []⟩], fun _ => .new, []⟩
    _ ⟨1⟩ _ _ _ _ shows rfl
  generalize joined : Chronicle.step ⟨logCluster, [⟨logOf .null, []⟩], fun _ => .new, []⟩
    (.subscribe ⟨1⟩ ⟨1⟩) = t at third
  have takes : t.cluster.hub.Takes logEvent.object logEvent
      ⟨⟨0⟩, ⟨[⟨⟨1⟩, 0⟩], #[true]⟩, .zero⟩ (logOf .null) (logOf (.tower 2)) event := by
    rw [third]
    exact ⟨rfl, rfl, rfl, taken.encoded, taken.applied⟩
  obtain ⟨tally', fourth⟩ := published_post takes
  have ran : (start logCatalog .testing logFaults).run logSteps =
      t.published logEvent (t.cluster.post logEvent) := by
    rw [← joined, ← run_host_log]
    rfl
  refine ⟨_, rfl, ?_⟩
  rw [ran, fourth, third]
  exact ⟨rfl, rfl, rfl, rfl⟩

theorem counted_log : ((start logCatalog .testing logFaults).run logSteps).Counted logSteps := by
  obtain ⟨t, rfl, stories, -⟩ := run_log
  refine ⟨?_, by decide⟩
  rw [stories]
  decide

theorem pump_log : ∃ t, t = ((start logCatalog .testing logFaults).run logSteps).step .pump ∧
    t.cluster.hub.hosted.get? ⟨1⟩ = some ⟨⟨0⟩, ⟨[⟨⟨1⟩, 0⟩], #[true]⟩, ⟨1⟩⟩ ∧
    t.cluster.clients.contains ⟨1⟩ = true ∧ (t.views ⟨1⟩).accounts ⟨1⟩ = ⟨false, 0, 1⟩ := by
  obtain ⟨t, ran, -, held, clients, account⟩ := run_log
  have distinct : t.cluster.clients.Distinct := by
    rw [clients]
    exact List.nodup_singleton _
  have connected : t.cluster.clients.contains ⟨1⟩ = true := by
    rw [clients]
    rfl
  obtain ⟨hosted, still, emptied⟩ := pump_keeps distinct ⟨1⟩ ⟨1⟩
  refine ⟨_, rfl, ?_⟩
  rw [← ran, hosted, still, (emptied connected).2, account]
  exact ⟨held, connected, rfl⟩

/-! ### All runs -/

/-- A replica was made from some hosted object, and holds the values that this object had right
after the last event that the replica applied. No event that it applies is refused. -/
theorem replica_values_eq (reachable : c.Reachable) (keyed : ∀ step ∈ steps, step.WellKeyed)
    (ran : t = (start c config faults).run steps) (counted : t.Counted steps) :
    (∀ e f id r, t.cluster.clients.get? e = some f → f.replicas.get? id = some r →
      ∃ h story, (t.views e).source id = some h ∧ t.stories[h.place]? = some story ∧
        story.object.id = id ∧ r.object.type = story.object.type ∧
        story.valuesAfter r.sequencer.last.number.toNat = some r.object.values) ∧
    ∀ e id count rejected, (e, .applied id count rejected) ∈ t.updates → rejected = [] := by
  have agrees := counted.agrees reachable keyed ran
  refine ⟨fun e f id r client there => ?_, fun e id count rejected mem => ?_⟩
  · obtain ⟨ps, expects⟩ := agrees.expects e
    have replica : replicaIn (t.cluster.clients.get? e) id = some r := by
      simp [replicaIn, client, there]
    obtain ⟨h, source, follows⟩ := (expects.strands id).follows r replica
    obtain ⟨story, at_, told, same⟩ := follows.tells
    have named := follows.named
    rw [same] at named
    exact ⟨h, story, source, at_, named, by rw [same], told⟩
  · exact agrees.clean e _ mem id count rejected rfl

theorem replica_values_eq_log : ∃ t f r h story,
    t = (start logCatalog .testing logFaults).run (logSteps ++ [.pump]) ∧
    t.cluster.clients.get? ⟨1⟩ = some f ∧ f.replicas.get? ⟨1⟩ = some r ∧
    (t.views ⟨1⟩).source ⟨1⟩ = some h ∧ t.stories[h.place]? = some story ∧
    story.valuesAfter 1 = some r.object.values := by
  obtain ⟨t, pumped, held, connected, account⟩ := pump_log
  have before := counted_log.agrees reachable_log wellKeyed_log rfl
  subst pumped
  obtain ⟨f, r, client, there, -, last, -⟩ := before.upToDate_of_pump reachable_log held rfl
    connected (by rw [account]; exact ⟨rfl, .inr (by decide)⟩)
  have keyed : ∀ step ∈ logSteps ++ [.pump], step.WellKeyed := by
    intro step mem
    rcases List.mem_append.mp mem with old | new
    · exact wellKeyed_log step old
    · rw [List.mem_singleton.mp new]
      trivial
  obtain ⟨h, story, source, at_, -, -, told⟩ :=
    (replica_values_eq reachable_log keyed rfl ⟨counted_log.events, by decide⟩).1 ⟨1⟩ f ⟨1⟩ r
      client there
  refine ⟨_, f, r, h, story, rfl, client, there, source, at_, ?_⟩
  have last : r.sequencer.last.number.toNat = 1 := last
  rwa [last] at told

/-- Right after a pump a subscriber's replica is the hosted object, unless an event was refused
since its last snapshot, or events overtake one another and too many were queued at once. -/
theorem replica_eq_of_pump (reachable : c.Reachable) (keyed : ∀ step ∈ steps, step.WellKeyed)
    (pumped : t = ((start c config faults).run steps).step .pump) (counted : t.Counted steps)
    (held : t.cluster.hub.hosted.get? id = some hosted)
    (subscribed : hosted.subscribers.contains e = true)
    (connected : t.cluster.clients.contains e = true)
    (unrefused : ((t.views e).accounts id).refused = false)
    (orderly : faults.jump = 0 ∨
      ((t.views e).accounts id).widest ≤ SequencerConfig.default.maxPending + 1) :
    ∃ o f r, t.cluster.hub.object? id = some o ∧ t.cluster.clients.get? e = some f ∧
      f.replicas.get? id = some r ∧ r.sequencer.last = hosted.last ∧ r.sequencer.pending = [] ∧
      r.object.values = o.values ∧ r.object.same o = true := by
  subst pumped
  -- A pump publishes nothing and adds no client.
  have earlier : ((start c config faults).run steps).Counted steps :=
    ⟨counted.events, counted.clients⟩
  have before := earlier.agrees reachable keyed rfl
  have after := before.pump reachable
  obtain ⟨f, r, client, there, follows, last, empty⟩ :=
    before.upToDate_of_pump reachable held subscribed connected ⟨unrefused, orderly⟩
  obtain ⟨o, shared, _, ends⟩ := (after.keeps.hosts id hosted held).shared
  have tells := follows.tells
  rw [last] at tells
  have same : r.object = o := tells.unique ends.tells
  refine ⟨o, f, r, by rw [Hub.object?_eq held, shared], client, there, Seq.ext last, empty,
    by rw [same], ?_⟩
  rw [same]
  exact SharedObject.same_self (ends.tells.wellKeyed after.keeps.valid)

theorem replica_eq_of_pump_log : ∃ t hosted o f r,
    t = ((start logCatalog .testing logFaults).run logSteps).step .pump ∧
    t.cluster.hub.hosted.get? ⟨1⟩ = some hosted ∧ hosted.last = ⟨1⟩ ∧
    t.cluster.hub.object? ⟨1⟩ = some o ∧ t.cluster.clients.get? ⟨1⟩ = some f ∧
    f.replicas.get? ⟨1⟩ = some r ∧ r.sequencer.last = hosted.last ∧ r.sequencer.pending = [] ∧
    r.object.values = o.values ∧ r.object.same o = true := by
  obtain ⟨t, pumped, held, connected, account⟩ := pump_log
  obtain ⟨o, f, r, replica⟩ := replica_eq_of_pump reachable_log wellKeyed_log pumped
    (by rw [pumped]; exact ⟨counted_log.events, by decide⟩) held rfl connected (by rw [account])
    (.inr (by rw [account]; decide))
  exact ⟨t, _, o, f, r, pumped, held, rfl, replica⟩

end SharedObjects.Chronicle
