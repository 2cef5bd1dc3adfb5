import SharedObjects.Proofs.Channels.Lanes
/-!
What comes through channels. Channels add to their queues only which of them a message goes to; so
whatever is done with channels, a receiver gets what was accepted during its tenure, and what is
done for one endpoint makes no difference to another.
-/
set_option autoImplicit false

namespace SharedObjects

/-- The step is about this endpoint, or about a receiver that was opened for it. -/
def ChannelStep.Concerns (past : List ChannelTurn) (e : EndpointId) : ChannelStep → Prop
  | .connect e' | .disconnect e' | .send e' _ => e' = e
  | .receive n | .dropReceiver n => (callers past)[n]? = some e

namespace Channels

variable {κ : Type} {look : κ → Lane} {past during later : List ChannelTurn} {c : Channels κ}
  {n : Nat} {e e' : EndpointId} {s : ChannelStep}

variable (look) in
structure Kept (past : List ChannelTurn) (c : Channels κ) : Prop where
  room : 0 < c.capacity
  lanes : c.lanes.length = (callers past).length
  distinct : c.routes.Distinct
  routed : ∀ {e n}, c.routes.get? e = some n ↔ Serves past n e
  holds : ∀ {n e during later}, Tenure past n e during later → ∃ lane, c.lanes[n]? = some lane ∧
    (look lane).Holds c.capacity (accepted e during) (received n (during ++ later))
      (dropped n (during ++ later))

theorem kept_new (capacity : Nat) : Kept look [] (withCapacity capacity : Channels κ) where
  room := Nat.lt_of_lt_of_le Nat.zero_lt_one (Nat.le_max_right _ _)
  lanes := rfl
  distinct := List.nodup_nil
  routed := by
    intro e n
    constructor
    · nofun
    · rintro ⟨during, tenure⟩
      exact absurd tenure.lt_callers (Nat.not_lt_zero _)
  holds := fun tenure => absurd tenure.lt_callers (Nat.not_lt_zero _)

namespace Kept

theorem caller_of_routed (kept : Kept look past c) (routed : c.routes.get? e = some n) :
    (callers past)[n]? = some e := by
  obtain ⟨_, tenure⟩ := kept.routed.mp routed
  exact tenure.caller

theorem isFed_iff (kept : Kept look past c) (opened : (callers past)[n]? = some e) :
    c.isFed n ↔ c.routes.get? e = some n := by
  have fed : c.isFed n ↔ ∃ e', c.routes.get? e' = some n := by
    simp only [isFed, List.any_eq_true, decide_eq_true_eq, Prod.exists, kept.distinct.mem_iff]
    simp
  rw [fed]
  constructor
  · rintro ⟨e', routed⟩
    obtain rfl := Option.some.inj ((kept.caller_of_routed routed).symm.trans opened)
    exact routed
  · exact fun routed => ⟨e, routed⟩

theorem isFed_eq (kept : Kept look past c) (tenure : Tenure past n e during later) :
    c.isFed n = later.isEmpty := by
  rw [Bool.eq_iff_iff, kept.isFed_iff tenure.caller, kept.routed, List.isEmpty_iff]
  constructor
  · rintro ⟨_, other⟩
    exact (tenure.unique other).2.2.symm
  · rintro rfl
    exact ⟨_, tenure⟩

variable [Queue κ]

theorem given_of_serves (kept : Kept look past c) (serves : Serves past n e) (s : ChannelStep) :
    c.given s n = ((c.turn s).accepted? e).toList := by
  cases s with
  | send e' message =>
    have routed : c.routes.get? e' = some n ↔ e' = e := by
      rw [kept.routed]
      refine ⟨fun ⟨during, other⟩ => ?_, fun same => same ▸ serves⟩
      obtain ⟨_, tenure⟩ := serves
      exact (tenure.unique other).1
    simp only [given, routed, turn, perform]
    cases (c.send e' message).1 with
    | error fault => simp [Except.isOk, Except.toBool, ChannelTurn.accepted?]
    | ok _ =>
      by_cases same : e' = e <;> simp [Except.isOk, Except.toBool, ChannelTurn.accepted?, same]
  | _ => rfl

theorem given_of_later (kept : Kept look past c) (tenure : Tenure past n e during later)
    (s : ChannelStep) (ended : later = [] → s.Reroutes e) : c.given s n = [] := by
  cases s with
  | send e' message =>
    have unrouted : c.routes.get? e' ≠ some n := fun routed => by
      obtain ⟨_, other⟩ := kept.routed.mp routed
      obtain ⟨rfl, -, rfl⟩ := other.unique tenure
      simpa [ChannelStep.Reroutes] using ended rfl
    simp [given, unrouted]
  | _ => rfl

theorem next (fifo : Queue.Fifo κ look) (kept : Kept look past c) (s : ChannelStep) :
    Kept look (past ++ [c.turn s]) (perform s c).2 where
  room := by simpa only [capacity_perform] using kept.room
  lanes := by
    rw [length_lanes_perform, callers_snoc, List.length_append, kept.lanes]
    rfl
  distinct := by
    rw [routes_perform]
    cases s with
    | connect e => exact kept.distinct.put _
    | disconnect e => exact kept.distinct.erase e
    | _ => exact kept.distinct
  routed := by
    intro e n
    have made : (c.turn s).step = s := rfl
    rw [get?_routes_perform, serves_snoc, made, ← kept.routed, kept.lanes]
    by_cases connects : s = .connect e
    · simp [connects, ChannelStep.Reroutes, eq_comm]
    · by_cases disconnects : s = .disconnect e <;>
        simp [connects, disconnects, ChannelStep.Reroutes]
  holds := by
    intro n e during later tenure
    rw [capacity_perform]
    rcases tenure.cases_snoc with ⟨opens, rfl, rfl, rfl⟩ | ⟨before, rfl, rfl, stays, inner⟩ |
      ⟨since, rfl, ended, inner⟩
    · obtain rfl : s = .connect e := opens
      refine ⟨Queue.opened c.capacity, by simp [perform, connect, kept.lanes], ?_⟩
      rw [fifo.opened _ kept.room]
      exact Lane.holds_opened _
    · obtain ⟨lane, there, holds⟩ := kept.holds inner
      obtain ⟨lane', there', holds'⟩ := holds_perform fifo there holds s
      rw [kept.given_of_serves ⟨_, inner⟩] at holds'
      refine ⟨lane', there', ?_⟩
      rw [List.append_nil, accepted_snoc, received_snoc, dropped_snoc]
      simpa using holds'
    · obtain ⟨lane, there, holds⟩ := kept.holds inner
      obtain ⟨lane', there', holds'⟩ := holds_perform fifo there holds s
      rw [kept.given_of_later inner s ended, List.append_nil] at holds'
      refine ⟨lane', there', ?_⟩
      rw [← List.append_assoc, received_snoc, dropped_snoc]
      exact holds'

end Kept

variable [Queue κ]

theorem kept_after (fifo : Queue.Fifo κ look) (capacity : Nat) (steps : List ChannelStep) :
    Kept look ((withCapacity capacity : Channels κ).history steps)
      ((withCapacity capacity : Channels κ).after steps) :=
  run_induction (fun _ _ s kept => kept.next fifo s) (kept_new capacity) steps

theorem capacity_after (c : Channels κ) (steps : List ChannelStep) :
    (c.after steps).capacity = c.capacity := by
  induction steps generalizing c with
  | nil => rfl
  | cons s rest ih => exact (ih (perform s c).2).trans (capacity_perform c s)

variable (c) in
/-- How channels behave that were made for this capacity, after these turns. -/
structure Conduct (capacity : Nat) (past : List ChannelTurn) : Prop where
  /-- The receivers are numbered as they are opened, and each has its tenure. -/
  opens : ∀ e, (perform (.connect e) c).1 = .connected (callers past).length
  tenures : ∀ {n e}, (callers past)[n]? = some e → ∃ during later, Tenure past n e during later
  /-- A receiver has got the first of the messages that were accepted during its tenure, in order
  and each of them once. Of the others there are no more than a queue has room for. -/
  gets : ∀ {n e during later}, Tenure past n e during later →
    received n (during ++ later) <+: accepted e during ∧
    (accepted e during).length ≤ (received n (during ++ later)).length + max capacity 1
  /-- The next of them is what it gets next; after the last of them there are no more to come, once
  its tenure is over. -/
  next : ∀ {n e during later}, Tenure past n e during later → dropped n (during ++ later) = false →
    (c.receive n).1 = .of later.isEmpty
      ((accepted e during).drop (received n (during ++ later)).length).head?
  unknown : ∀ e message, (c.send e message).1 = .error .unknownEndpoint ↔ Unserved past e
  sends : ∀ {n e during}, Tenure past n e during [] → ∀ message, (c.send e message).1 =
    if dropped n during then .error .disconnected
    else if (accepted e during).length = (received n during).length + max capacity 1
      then .error .backpressure
    else .ok ()
  /-- What is done for one endpoint changes no queue that was opened for another, and no answer to
  another. -/
  apart : ∀ {s e e'}, s.Concerns past e → e' ≠ e →
    (∀ message, ((perform s c).2.send e' message).1 = (c.send e' message).1) ∧
    ∀ n, (callers past)[n]? = some e' → (perform s c).2.lanes[n]? = c.lanes[n]? ∧
      ((perform s c).2.receive n).1 = (c.receive n).1

namespace Kept

omit [Queue κ] in
theorem received_prefix (kept : Kept look past c) (tenure : Tenure past n e during later) :
    received n (during ++ later) <+: accepted e during ∧
    (accepted e during).length ≤ (received n (during ++ later)).length + c.capacity := by
  obtain ⟨lane, -, holds⟩ := kept.holds tenure
  obtain ⟨lost, split, -, bounded⟩ := holds.kept
  refine ⟨⟨_, split.symm⟩, ?_⟩
  rw [split]
  simp only [List.length_append]
  omega

theorem receive_eq (fifo : Queue.Fifo κ look) (kept : Kept look past c)
    (tenure : Tenure past n e during later) (there : dropped n (during ++ later) = false) :
    (c.receive n).1 = .of later.isEmpty
      ((accepted e during).drop (received n (during ++ later)).length).head? := by
  obtain ⟨lane, at_, holds⟩ := kept.holds tenure
  rw [there] at holds
  rw [Channels.receive_eq c at_, kept.isFed_eq tenure, fifo.take, holds.waiting_eq,
    List.drop_left]
  rfl

theorem send_eq (fifo : Queue.Fifo κ look) (kept : Kept look past c)
    (tenure : Tenure past n e during []) (message : Octets) : (c.send e message).1 =
      if dropped n during then .error .disconnected
      else if (accepted e during).length = (received n during).length + c.capacity
        then .error .backpressure
      else .ok () := by
  obtain ⟨lane, at_, holds⟩ := kept.holds tenure
  rw [List.append_nil] at holds
  rw [Channels.send_eq c (kept.routed.mpr ⟨_, tenure⟩) at_, fifo.offer, holds.offer_eq]
  split
  · rfl
  · split <;> rfl

theorem send_unknown_iff (fifo : Queue.Fifo κ look) (kept : Kept look past c) (message : Octets) :
    (c.send e message).1 = .error .unknownEndpoint ↔ Unserved past e := by
  rw [unserved_iff]
  constructor
  · rintro unknown ⟨n, during, tenure⟩
    rw [kept.send_eq fifo tenure] at unknown
    split at unknown
    · cases unknown
    · split at unknown <;> cases unknown
  · intro unserved
    have unrouted : c.routes.get? e = none := by
      cases routed : c.routes.get? e with
      | none => rfl
      | some n => exact absurd ⟨n, kept.routed.mp routed⟩ unserved
    simp [send, lane?_eq, unrouted]

theorem lanes_apart (kept : Kept look past c) (concerns : s.Concerns past e) (other : e' ≠ e)
    (opened : (callers past)[n]? = some e') : (perform s c).2.lanes[n]? = c.lanes[n]? := by
  have within : n < c.lanes.length := by
    rw [kept.lanes]
    exact (List.getElem?_eq_some_iff.mp opened).1
  have there := List.getElem?_eq_getElem within
  have elsewhere : (callers past)[n]? ≠ some e := fun same =>
    other (Option.some.inj (opened.symm.trans same))
  rw [lanes_perform c s there, there]
  cases s with
  | send sender message =>
    obtain rfl : sender = e := concerns
    have unrouted : c.routes.get? sender ≠ some n := fun routed =>
      elsewhere (kept.caller_of_routed routed)
    simp [unrouted]
  | receive m =>
    have different : m ≠ n := fun same => elsewhere (same ▸ concerns)
    simp [different]
  | dropReceiver m =>
    have different : m ≠ n := fun same => elsewhere (same ▸ concerns)
    simp [different]
  | _ => rfl

theorem apart (fifo : Queue.Fifo κ look) (kept : Kept look past c) (concerns : s.Concerns past e)
    (other : e' ≠ e) :
    (∀ message, ((perform s c).2.send e' message).1 = (c.send e' message).1) ∧
    ∀ n, (callers past)[n]? = some e' → (perform s c).2.lanes[n]? = c.lanes[n]? ∧
      ((perform s c).2.receive n).1 = (c.receive n).1 := by
  have routes : (perform s c).2.routes.get? e' = c.routes.get? e' := by
    have unconnected : s ≠ .connect e' := by
      rintro rfl
      exact other concerns
    have connected : s ≠ .disconnect e' := by
      rintro rfl
      exact other concerns
    rw [get?_routes_perform, if_neg unconnected, if_neg connected]
  refine ⟨fun message => send_congr c ?_ message, fun n opened => ?_⟩
  · rw [lane?_eq, lane?_eq, routes]
    cases routed : c.routes.get? e' with
    | none => rfl
    | some n => simp [kept.lanes_apart concerns other (kept.caller_of_routed routed)]
  · have lanes := kept.lanes_apart concerns other opened
    have opened' : (callers (past ++ [c.turn s]))[n]? = some e' := by
      rw [callers_snoc, List.getElem?_append_left (List.getElem?_eq_some_iff.mp opened).1, opened]
    have fed : (perform s c).2.isFed n = c.isFed n := by
      rw [Bool.eq_iff_iff, (kept.next fifo s).isFed_iff opened', kept.isFed_iff opened, routes]
    exact ⟨lanes, receive_congr c lanes fed⟩

end Kept

/-- Whatever is done with channels of any capacity: every receiver gets the messages that were
accepted during its tenure, in order, once each, and no more wait for it than there is room for. A
message is refused exactly if the endpoint is not connected, its receiver is gone, or its queue is
full, and the refusal says which. No endpoint's queues and answers depend on another endpoint. -/
theorem conduct_of_fifo (fifo : Queue.Fifo κ look) (capacity : Nat) (steps : List ChannelStep) :
    Conduct ((withCapacity capacity : Channels κ).after steps) capacity
      ((withCapacity capacity : Channels κ).history steps) := by
  have kept := kept_after fifo capacity steps
  have room : ((withCapacity capacity : Channels κ).after steps).capacity = max capacity 1 :=
    capacity_after _ steps
  exact {
    opens := fun e => by rw [← kept.lanes]; rfl
    tenures := Tenure.exists_of_caller
    gets := fun tenure => room ▸ kept.received_prefix tenure
    next := kept.receive_eq fifo
    unknown := fun _ => kept.send_unknown_iff fifo
    sends := fun tenure => room ▸ kept.send_eq fifo tenure
    apart := kept.apart fifo }

/-- A message waits while its endpoint is connected again; the first receiver gets it all the same,
the second one goes away. -/
theorem conduct_of_fifo_reconnected :
    let steps : List ChannelStep := [.connect ⟨7⟩, .send ⟨7⟩ [1], .connect ⟨7⟩, .send ⟨7⟩ [2],
      .dropReceiver 1, .receive 0]
    let past := (withCapacity 0 : Channels Lane).history steps
    Conduct ((withCapacity 0 : Channels Lane).after steps) 0 past ∧
      received 0 past = [[1]] ∧ accepted ⟨7⟩ past = [[1], [2]] ∧ dropped 1 past = true :=
  ⟨conduct_of_fifo Lane.fifo 0 _, rfl, rfl, rfl⟩

end Channels

end SharedObjects
