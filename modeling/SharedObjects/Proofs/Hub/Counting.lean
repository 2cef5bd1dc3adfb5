import Mathlib.Algebra.Order.BigOperators.Group.List
import Mathlib.Data.List.Perm.Subperm
import SharedObjects.Proofs.Hub.Enrolment
import SharedObjects.Proofs.Hub.Isolation
import SharedObjects.Proofs.Hub.Verdicts
/-!
What a hub counts. Over any run the counts can be checked against the run itself: against the
objects that came to be hosted and the numbers of their last events, against what the carrier took
and refused, and against the subscriptions that came to be.
-/
set_option autoImplicit false

namespace SharedObjects

variable {τ : Type}

theorem Entries.length_put_of_get? {κ ν : Type} [DecidableEq κ] {k : κ} {v : ν} {es : Entries κ ν}
    (held : es.get? k = some v) (w : ν) : (es.put k w).length = es.length := by
  have keys := congrArg List.length (keys_put_of_get? held w)
  simpa [Entries.keys] using keys

namespace Hub

def subscriptions (hub : Hub τ) : List (ObjectId × EndpointId) :=
  hub.hosted.flatMap fun entry => entry.2.subscribers.endpoints.map fun e => (entry.1, e)

/-- The subscriptions that stand afterwards and did not before. -/
def arrivals (hub after : Hub τ) : List (ObjectId × EndpointId) :=
  after.subscriptions.filter fun s => s ∉ hub.subscriptions

section Subscriptions

variable {hub : Hub τ} {id : ObjectId} {e : EndpointId}

theorem InOrder.mem_subscriptions_iff (order : hub.InOrder) : (id, e) ∈ hub.subscriptions ↔
    ∃ hosted, hub.hosted.get? id = some hosted ∧ e ∈ hosted.subscribers.endpoints := by
  simp only [subscriptions, List.mem_flatMap, List.mem_map, Prod.mk.injEq, Prod.exists,
    ← order.distinct.mem_iff]
  constructor
  · rintro ⟨other, hosted, held, f, hears, rfl, rfl⟩
    exact ⟨hosted, held, hears⟩
  · rintro ⟨hosted, held, hears⟩
    exact ⟨id, hosted, held, e, hears, rfl, rfl⟩

theorem InOrder.nodup_subscriptions (order : hub.InOrder) : hub.subscriptions.Nodup := by
  refine List.nodup_flatMap.mpr ⟨fun entry mem => ?_, ?_⟩
  · have held := order.distinct.mem_iff.mp mem
    exact (order.serves _ _ held).tidy.distinct.map fun _ _ same => (Prod.mk.inj same).2
  · have apart : hub.hosted.Pairwise fun a b => a.1 ≠ b.1 := List.pairwise_map.mp order.distinct
    refine apart.imp fun {a b} different => ?_
    rintro ⟨id, e⟩ here there
    simp only [List.mem_map, Prod.mk.injEq] at here there
    obtain ⟨_, -, rfl, -⟩ := here
    obtain ⟨_, -, same, -⟩ := there
    exact different same.symm

theorem InOrder.size_lt (order : hub.InOrder) : hub.size < 2 ^ 64 := by
  have numbered : (hub.hosted.keys.map fun id => id.number.toNat).Nodup :=
    order.distinct.map fun id other same => by
      cases id
      cases other
      exact congrArg ObjectId.mk (UInt32.toNat_inj.mp same)
  have bounded : (hub.hosted.keys.map fun id => id.number.toNat) ⊆ List.range (2 ^ 32) :=
    fun n mem => by
      obtain ⟨id, -, rfl⟩ := List.mem_map.mp mem
      exact List.mem_range.mpr id.number.toNat_lt
  have few := (numbered.subperm bounded).length_le
  rw [List.length_map, List.length_range] at few
  have size : hub.hosted.keys.length = hub.size := List.length_map _
  omega

theorem length_subscriptions_le (hub : Hub τ) {after : Hub τ} (order : after.InOrder) :
    after.subscriptions.length ≤ hub.subscriptions.length + (hub.arrivals after).length := by
  have parts := List.length_eq_length_filter_add (l := after.subscriptions)
    fun s => decide (s ∈ hub.subscriptions)
  have old : (after.subscriptions.filter fun s => decide (s ∈ hub.subscriptions)).length ≤
      hub.subscriptions.length :=
    ((order.nodup_subscriptions.filter _).subperm fun s mem => by
      simpa using (List.mem_filter.mp mem).2).length_le
  simp only [← decide_not] at parts
  rw [parts, arrivals]
  omega

end Subscriptions

variable [Carrier τ] {hub after : Hub τ} {op : HubOperation} {result : Except Fault HubAnswer}
  {sent : List (EndpointId × Message)} {id : ObjectId} {e : EndpointId}

theorem Outcome.joins_of_arrival (outcome : Outcome hub op result sent after)
    (order : hub.InOrder) (arrival : (id, e) ∈ hub.arrivals after) : op.Joins result id e := by
  obtain ⟨stands, new⟩ := List.mem_filter.mp arrival
  have new : (id, e) ∉ hub.subscriptions := by simpa using new
  obtain ⟨now, held, hears⟩ := (outcome.inOrder order).mem_subscriptions_iff.mp stands
  obtain ⟨before, entry, fate⟩ := outcome.origin order held
  cases fate with
  | arrives => cases hears
  | @stays hosted _ kept handle last tidy members =>
    refine ((members e).mp hears).resolve_right fun heard => new ?_
    exact order.mem_subscriptions_iff.mpr ⟨hosted, entry, heard.1⟩

theorem Outcome.arrivals_eq_nil (outcome : Outcome hub op result sent after) (order : hub.InOrder)
    (unjoined : result ≠ .ok .subscribed) : hub.arrivals after = [] :=
  List.eq_nil_iff_forall_not_mem.mpr fun _ arrival =>
    unjoined (outcome.joins_of_arrival order arrival).2

theorem Outcome.snapshot_taken (outcome : Outcome hub op result sent after)
    (joins : op.Joins result id e) : ∃ seq body,
      Carrier.verdicts (Message.wires sent) hub.carrier =
        [⟨e, (Message.snapshot id seq body).wire, .ok ()⟩] := by
  obtain ⟨rfl, rfl⟩ := joins
  cases outcome with
  | @subscribed _ _ hosted o body carrier shows taken =>
    exact ⟨hosted.last, body, by simp [Message.wires, Carrier.verdicts, taken]⟩

theorem Outcome.length_arrivals (order : hub.InOrder)
    (outcome : Outcome hub (.subscribe id e) (.ok .subscribed) sent after)
    (hosts : hub.contains id) :
    (hub.arrivals after).length = if (id, e) ∈ hub.subscriptions then 0 else 1 := by
  have later := outcome.inOrder order
  have only {s : ObjectId × EndpointId} (arrival : s ∈ hub.arrivals after) : s = (id, e) := by
    obtain ⟨same, -⟩ := outcome.joins_of_arrival order arrival
    obtain ⟨rfl, rfl⟩ := HubOperation.subscribe.inj same
    rfl
  have new {s : ObjectId × EndpointId} (arrival : s ∈ hub.arrivals after) :
      s ∉ hub.subscriptions := by simpa using (List.mem_filter.mp arrival).2
  split
  · rename_i there
    rw [List.eq_nil_iff_forall_not_mem.mpr fun s arrival => new arrival (only arrival ▸ there),
      List.length_nil]
  · rename_i absent
    obtain ⟨hosted, held⟩ := Option.isSome_iff_exists.mp hosts
    obtain ⟨entry, there, fate⟩ := outcome.future order held
    have stands : (id, e) ∈ after.subscriptions := by
      cases fate with
      | @stays _ now kept handle last tidy members =>
        exact later.mem_subscriptions_iff.mpr
          ⟨now, there, (members e).mpr (.inl ⟨rfl, rfl⟩)⟩
      | leaves asked => cases asked
    have arrives : (id, e) ∈ hub.arrivals after :=
      List.mem_filter.mpr ⟨stands, by simpa using absent⟩
    have single : (hub.arrivals after).Perm [(id, e)] :=
      (List.perm_ext_iff_of_nodup (later.nodup_subscriptions.filter _) (List.nodup_singleton _)).mpr
        fun s => ⟨fun arrival => by simp [only arrival],
          fun same => List.mem_singleton.mp same ▸ arrives⟩
    exact single.length_eq

theorem Outcome.tally_subscriptions (outcome : Outcome hub op result sent after)
    (order : hub.InOrder) : after.tally.subscriptions =
      hub.tally.subscriptions + .ofNat (hub.arrivals after).length := by
  have unjoined (other : result ≠ .ok .subscribed) : hub.tally.subscriptions =
      hub.tally.subscriptions + .ofNat (hub.arrivals after).length := by
    rw [outcome.arrivals_eq_nil order other]
    exact (UInt64.add_zero _).symm
  have whole := outcome
  cases outcome with
  | @subscribed id e hosted o body carrier shows taken =>
    have there : (id, e) ∈ hub.subscriptions ↔ hosted.subscribers.contains e := by
      simp [order.mem_subscriptions_iff, shows.held, Subscribers.contains]
    have hosts : hub.contains id := by simp [contains, Entries.contains, shows.held]
    rw [whole.length_arrivals order hosts]
    simp only [there, joined, HubTally.subscribe, Subscribers.add]
    split <;> rfl
  | forwarded _ _ posts => cases posts <;> exact unjoined (by rintro ⟨⟩)
  | _ => exact unjoined (by rintro ⟨⟩)

end Hub

def Turn.arrivals (t : Turn τ) : List (ObjectId × EndpointId) := t.before.arrivals t.after

namespace Hub

theorem Enrolled.published_eq {past : List (Turn τ)} {hub : Hub (Recorded τ)}
    (enrolled : hub.Enrolled past) : hub.tally.published =
      .ofNat ((registrations past).map fun h => (lastNumber past h).number.toNat).sum := by
  have numbers : (registrations past).map (fun h => (lastNumber past h).number.toNat) =
      (registrations past).map fun h => publications past h % 2 ^ 64 :=
    List.map_congr_left fun h _ => by rw [enrolled.numbered, Seq.ofNat, UInt64.toNat_ofNat']
  have parts : ((registrations past).map (publications past)).sum % 2 ^ 64 =
      ((registrations past).map fun h => publications past h % 2 ^ 64).sum % 2 ^ 64 := by
    rw [List.sum_nat_mod, List.map_map]
    rfl
  rw [enrolled.published, numbers, ← UInt64.toNat_inj, UInt64.toNat_ofNat', UInt64.toNat_ofNat',
    parts]

end Hub

def removals (turns : List (Turn τ)) : List ObjectId := turns.filterMap fun t => removal? t.answer

theorem removals_snoc (turns : List (Turn τ)) (t : Turn τ) :
    removals (turns ++ [t]) = removals turns ++ (removal? t.answer).toList := by
  cases removed : removal? t.answer <;> simp [removals, removed]

/-- How many objects are hosted after a turn, and what the hub counts of it. -/
structure Turn.Turnover (t : Turn τ) : Prop where
  size : t.after.size + (removal? t.answer).toList.length =
    t.before.size + t.registration?.toList.length
  registered : t.after.tally.registered =
    t.before.tally.registered + .ofNat t.registration?.toList.length
  unregistered : t.after.tally.unregistered =
    t.before.tally.unregistered + .ofNat (removal? t.answer).toList.length

theorem Turn.Turnover.of_same {t : Turn τ} (unregistered : t.registration? = none)
    (kept : removal? t.answer = none) (size : t.after.size = t.before.size)
    (registrations : t.after.tally.registered = t.before.tally.registered)
    (removals : t.after.tally.unregistered = t.before.tally.unregistered) : t.Turnover where
  size := by simp [unregistered, kept, size]
  registered := by simp [unregistered, registrations]
  unregistered := by simp [kept, removals]

/-- A counter of 64 bits has come to so many: they are the same modulo `2 ^ 64`, and the same as
long as they are fewer. -/
structure CountsTo (counter : UInt64) (n : Nat) : Prop where
  mod : counter.toNat = n % 2 ^ 64
  exact_of_lt : n < 2 ^ 64 → counter.toNat = n

theorem countsTo_iff {counter : UInt64} {n : Nat} : CountsTo counter n ↔ counter = .ofNat n := by
  constructor
  · rintro ⟨mod, -⟩
    rw [← UInt64.toNat_inj, UInt64.toNat_ofNat', mod]
  · rintro rfl
    exact ⟨UInt64.toNat_ofNat', fun few => by rw [UInt64.toNat_ofNat', Nat.mod_eq_of_lt few]⟩

theorem CountsTo.add {counter : UInt64} {n : Nat} (counts : CountsTo counter n) (more : Nat) :
    CountsTo (counter + .ofNat more) (n + more) := by
  rw [countsTo_iff] at counts ⊢
  rw [counts, UInt64.ofNat_add]

variable [Carrier τ]

/-- What a hub has counted after these turns. -/
structure Tallied (turns : List (Turn τ)) (hub : Hub (Recorded τ)) : Prop where
  once : (registrations turns).Nodup
  hosted : (registrations turns).length = (removals turns).length + hub.size
  registered : CountsTo hub.tally.registered (registrations turns).length
  unregistered : CountsTo hub.tally.unregistered (removals turns).length
  /-- The difference is right even when the counters have wrapped. -/
  balance : (hub.tally.registered - hub.tally.unregistered).toNat = hub.size
  published : CountsTo hub.tally.published
    ((registrations turns).map fun h => (lastNumber turns h).number.toNat).sum
  delivered : CountsTo hub.tally.delivered (turns.map fun t => Verdict.taken t.verdicts).sum
  failed : CountsTo hub.tally.failed (turns.map fun t => Verdict.refused t.verdicts).sum
  subscriptions : CountsTo hub.tally.subscriptions (turns.map fun t => t.arrivals.length).sum
  standing : hub.subscriptions.length ≤ (turns.map fun t => t.arrivals.length).sum

/-- What can be said of the counts and the report of one turn. -/
structure Turn.Accounted (t : Turn τ) : Prop where
  /-- Where a subscription came to be, a snapshot was taken. -/
  arrivals : ∀ {id e}, (id, e) ∈ t.arrivals → ∃ seq body,
    t.verdicts = [⟨e, (Message.snapshot id seq body).wire, .ok ()⟩]
  reports : ∀ {answer r}, t.answer = .ok answer → answer.report? = some r →
    r.Faithful (t.before.subscribersOf r.object) t.verdicts

section Tallying

variable {past later : List (Turn τ)} {t : Turn τ} {sent : List (EndpointId × Message)}

namespace Hub

theorem tallied_new (c : Catalog) (carrier : τ) (config : HubConfig) :
    Tallied [] (Hub.new c ⟨carrier, []⟩ config) where
  once := List.nodup_nil
  hosted := rfl
  registered := countsTo_iff.mpr rfl
  unregistered := countsTo_iff.mpr rfl
  balance := congrArg UInt64.toNat (UInt64.sub_self 0)
  published := countsTo_iff.mpr rfl
  delivered := countsTo_iff.mpr rfl
  failed := countsTo_iff.mpr rfl
  subscriptions := countsTo_iff.mpr rfl
  standing := Nat.le_refl _

theorem Outcome.turnover {hub after : Hub (Recorded τ)} {op : HubOperation}
    {result : Except Fault HubAnswer} (outcome : Outcome hub op result sent after)
    (order : hub.InOrder) : Turn.Turnover ⟨hub, op, result, after⟩ := by
  have kept {id : ObjectId} {entry : Hosted} (held : hub.hosted.get? id = some entry)
      (now : Hosted) : (hub.hosted.put id now).length = hub.size :=
    Entries.length_put_of_get? held now
  cases outcome with
  | failed => exact .of_same (by simp [Turn.registration?]) rfl rfl rfl rfl
  | @registered now h id o identifiers shared unregistered allocated =>
    obtain ⟨unused, -⟩ := order.accounts.allocate allocated
    exact ⟨by simp [size, registering, Entries.put_of_not_mem_keys unused, removal?,
      Turn.registration?], rfl, (UInt64.add_zero _).symm⟩
  | @unregistered now id hosted o held shared live =>
    have one : (hub.hosted.erase id).length + 1 = hub.hosted.length :=
      (order.distinct.perm_cons_erase held).length_eq
    exact ⟨by simpa [size, leaving, removal?, Turn.registration?] using one,
      (UInt64.add_zero _).symm, rfl⟩
  | subscribed shows => exact .of_same rfl rfl (kept shows.held _) rfl rfl
  | unsubscribed _ held => exact .of_same rfl rfl (kept held _) rfl rfl
  | published held => exact .of_same rfl rfl (kept held _) rfl rfl
  | posted takes => exact .of_same rfl rfl (kept takes.held _) rfl rfl
  | forwarded _ _ posts =>
    cases posts with
    | failed => exact .of_same rfl rfl rfl rfl rfl
    | posted takes => exact .of_same rfl rfl (kept takes.held _) rfl rfl
  | disconnected e => exact .of_same rfl rfl (by simp [size, without]) rfl rfl
  | _ => exact .of_same rfl rfl rfl rfl rfl

structure Reckons (past : List (Turn τ)) (hub : Hub (Recorded τ)) : Prop where
  recalls : hub.Recalls past
  enrolled : hub.Enrolled past
  tallied : Tallied past hub

namespace Reckons

theorem new (c : Catalog) (carrier : τ) (config : HubConfig) :
    (Hub.new c ⟨carrier, []⟩ config).Reckons [] :=
  ⟨recalls_new c carrier config, enrolled_new c carrier config, tallied_new c carrier config⟩

theorem turn {hub : Hub (Recorded τ)} (reckons : hub.Reckons past) (s : HubStep τ) :
    (hub.turn s).before.Reckons past where
  recalls := recalls_turn past hub s reckons.recalls
  enrolled := { reckons.enrolled with }
  tallied := { reckons.tallied with }

theorem hosted_next (reckons : t.before.Reckons past) (turnover : t.Turnover) :
    (registrations (past ++ [t])).length = (removals (past ++ [t])).length + t.after.size := by
  have before := reckons.tallied.hosted
  have size := turnover.size
  rw [registrations_snoc, removals_snoc, List.length_append, List.length_append]
  omega

theorem tallied_next (reckons : t.before.Reckons past) (sends : t.Sends sent) :
    Tallied (past ++ [t]) t.after := by
  have order := reckons.recalls.order
  have enrolled := reckons.enrolled.next reckons.recalls sends
  have turnover : t.Turnover := Outcome.turnover sends order
  have hosted := reckons.hosted_next turnover
  obtain ⟨delivered, failed⟩ := Outcome.counts sends
  rw [← sends.verdicts_eq] at delivered failed
  have subscriptions := Outcome.tally_subscriptions sends order
  have registered : CountsTo t.after.tally.registered (registrations (past ++ [t])).length := by
    rw [turnover.registered, registrations_snoc, List.length_append]
    exact reckons.tallied.registered.add _
  have unregistered : CountsTo t.after.tally.unregistered (removals (past ++ [t])).length := by
    rw [turnover.unregistered, removals_snoc, List.length_append]
    exact reckons.tallied.unregistered.add _
  exact {
    once := enrolled.once
    hosted := hosted
    registered := registered
    unregistered := unregistered
    balance := by
      rw [countsTo_iff.mp registered, countsTo_iff.mp unregistered, hosted, UInt64.ofNat_add,
        UInt64.add_comm, UInt64.add_sub_cancel, UInt64.toNat_ofNat']
      exact Nat.mod_eq_of_lt (Outcome.inOrder sends order).size_lt
    published := countsTo_iff.mpr enrolled.published_eq
    delivered := by
      rw [delivered, List.map_append, List.sum_append]
      exact reckons.tallied.delivered.add _
    failed := by
      rw [failed, List.map_append, List.sum_append]
      exact reckons.tallied.failed.add _
    subscriptions := by
      rw [subscriptions, List.map_append, List.sum_append]
      exact reckons.tallied.subscriptions.add _
    standing := by
      have more := t.before.length_subscriptions_le (Outcome.inOrder sends order)
      rw [List.map_append, List.sum_append]
      exact Nat.le_trans more (Nat.add_le_add_right reckons.tallied.standing _) }

theorem next (reckons : t.before.Reckons past) (sends : t.Sends sent) :
    t.after.Reckons (past ++ [t]) where
  recalls := reckons.recalls.next sends
  enrolled := reckons.enrolled.next reckons.recalls sends
  tallied := reckons.tallied_next sends

theorem accounted (reckons : t.before.Reckons past) (sends : t.Sends sent) : t.Accounted where
  arrivals := fun arrival => by
    have joins := Outcome.joins_of_arrival sends reckons.recalls.order arrival
    rw [sends.verdicts_eq]
    exact Outcome.snapshot_taken sends joins
  reports := fun answered reported => by
    rw [sends.verdicts_eq]
    exact Outcome.reports sends reckons.recalls.order answered reported

end Reckons

/-- Whatever is done with a hub, and however its carrier behaves, the hub's counts are right after
every turn: of the objects it hosts, of the events, of the messages that were taken and refused, and
of the subscriptions; and a report covers all subscribers there were. -/
theorem counts_exact (c : Catalog) (config : HubConfig) (carrier : τ) (steps : List (HubStep τ))
    (past : List (Turn τ)) (t : Turn τ) (later : List (Turn τ))
    (split : history c config carrier steps = past ++ t :: later) :
    Tallied (past ++ [t]) t.after ∧ t.Accounted := by
  have step (past : List (Turn τ)) (hub : Hub (Recorded τ)) (s : HubStep τ)
      (reckons : hub.Reckons past) : (hub.turn s).after.Reckons (past ++ [hub.turn s]) := by
    obtain ⟨sent, sends⟩ := Turn.exists_sends hub s
    exact (reckons.turn s).next sends
  obtain ⟨now, s, rest, reckons, rfl, -⟩ :=
    play_induction step (Reckons.new c carrier config) split
  obtain ⟨sent, sends⟩ := Turn.exists_sends now s
  exact ⟨(reckons.turn s).tallied_next sends, (reckons.turn s).accounted sends⟩

theorem counts_exact_busy : ∃ past t,
    history logCatalog .testing Tape.blank busyRun = past ++ [t] ∧
      Tallied (past ++ [t]) t.after ∧ t.Accounted := by
  rcases List.eq_nil_or_concat (history logCatalog .testing Tape.blank busyRun) with
    none | ⟨past, t, split⟩
  · cases none
  · have split : history logCatalog .testing Tape.blank busyRun = past ++ [t] := by
      simpa using split
    exact ⟨past, t, split, counts_exact logCatalog .testing Tape.blank busyRun past t [] split⟩

end Hub

end Tallying

end SharedObjects
