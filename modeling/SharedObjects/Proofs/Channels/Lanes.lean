import SharedObjects.Proofs.Channels.Tenures
set_option autoImplicit false

namespace SharedObjects

/-- Queues of this kind do what lanes do, if one looks at how much room they have, what waits in
them and whether their receiver is there. -/
structure Queue.Fifo (κ : Type) [Queue κ] (look : κ → Lane) : Prop where
  opened : ∀ capacity, 0 < capacity → look (Queue.opened capacity) = .opened capacity
  offer : ∀ message q, (Queue.offer message q).1 = ((look q).offer message).1
  offered : ∀ message q, look (Queue.offer message q).2 = ((look q).offer message).2
  take : ∀ q, (Queue.take q).1 = (look q).take.1
  taken : ∀ q, look (Queue.take q).2 = (look q).take.2
  close : ∀ q, look (Queue.close q) = (look q).close

theorem Lane.fifo : Queue.Fifo Lane id :=
  ⟨fun _ _ => rfl, fun _ _ => rfl, fun _ _ => rfl, fun _ => rfl, fun _ => rfl, fun _ => rfl⟩

namespace Lane

/-- A queue that was given these messages and gave out those. If its receiver is gone it may have
lost some. -/
structure Holds (lane : Lane) (room : Nat) (sent got : List Octets) (gone : Bool) : Prop where
  capacity : lane.capacity = room
  isClosed : lane.isClosed = gone
  kept : ∃ lost, sent = got ++ (lane.waiting ++ lost) ∧ (gone = false → lost = []) ∧
    lane.waiting.length + lost.length ≤ room

variable {lane : Lane} {room : Nat} {sent got : List Octets} {gone : Bool}

theorem holds_opened (room : Nat) : (opened room).Holds room [] [] false :=
  ⟨rfl, rfl, [], by simp [opened], fun _ => rfl, by simp [opened]⟩

namespace Holds

theorem waiting_eq (holds : lane.Holds room sent got false) : sent = got ++ lane.waiting := by
  obtain ⟨lost, split, none, -⟩ := holds.kept
  simpa [none rfl] using split

theorem offer_eq (holds : lane.Holds room sent got gone) (message : Octets) :
    (lane.offer message).1 =
      if gone then .error .closed
      else if sent.length = got.length + room then .error .full
      else .ok () := by
  obtain ⟨capacity, isClosed, lost, split, kept, bounded⟩ := holds
  cases gone with
  | true => simp [offer, isClosed]
  | false =>
    have size : sent.length = got.length + lane.waiting.length := by simp [split, kept rfl]
    have full : lane.waiting.length ≥ lane.capacity ↔ sent.length = got.length + room := by
      rw [capacity]
      omega
    simp only [offer, isClosed, full, Bool.false_eq_true, if_false]
    split <;> rfl

theorem offer (holds : lane.Holds room sent got gone) (message : Octets) :
    (lane.offer message).2.Holds room
      (sent ++ if (lane.offer message).1.isOk then [message] else []) got gone := by
  unfold Lane.offer
  split
  · simpa [Except.isOk, Except.toBool] using holds
  split
  · simpa [Except.isOk, Except.toBool] using holds
  rename_i there space
  obtain ⟨capacity, isClosed, lost, split, kept, bounded⟩ := holds
  have present : gone = false := by simpa [isClosed] using there
  refine ⟨capacity, isClosed, [], ?_, fun _ => rfl, ?_⟩
  · simp [split, kept present, Except.isOk, Except.toBool]
  · simp only [List.length_append, List.length_singleton, List.length_nil]
    omega

theorem take (holds : lane.Holds room sent got gone) :
    lane.take.2.Holds room sent (got ++ lane.take.1.toList) gone := by
  obtain ⟨capacity, isClosed, lost, split, kept, bounded⟩ := holds
  refine ⟨capacity, isClosed, lost, ?_, kept, ?_⟩ <;>
    cases waiting : lane.waiting <;> simp_all [Lane.take]
  omega

theorem close (holds : lane.Holds room sent got gone) : lane.close.Holds room sent got true := by
  obtain ⟨capacity, isClosed, lost, split, kept, bounded⟩ := holds
  exact ⟨capacity, rfl, lane.waiting ++ lost, by simpa [Lane.close] using split, nofun,
    by simpa [Lane.close] using bounded⟩

end Holds

end Lane

namespace Channels

section Performing

variable {κ : Type} [Queue κ]

def perform : ChannelStep → Channels κ → ChannelAnswer × Channels κ
  | .connect e, c => (.connected (c.connect e).1, (c.connect e).2)
  | .disconnect e, c => (.disconnected (c.disconnect e).1, (c.disconnect e).2)
  | .send e message, c => (.sent (c.send e message).1, (c.send e message).2)
  | .receive n, c => (.found (c.receive n).1, (c.receive n).2)
  | .dropReceiver n, c => (.dropped, c.dropReceiver n)

def turn (c : Channels κ) (s : ChannelStep) : ChannelTurn := ⟨s, (perform s c).1⟩

def history (c : Channels κ) : List ChannelStep → List ChannelTurn
  | [] => []
  | s :: rest => c.turn s :: history (perform s c).2 rest

def after (c : Channels κ) (steps : List ChannelStep) : Channels κ :=
  steps.foldl (fun c s => (perform s c).2) c

theorem run_induction {I : List ChannelTurn → Channels κ → Prop}
    (step : ∀ past c s, I past c → I (past ++ [c.turn s]) (perform s c).2)
    {past : List ChannelTurn} {c : Channels κ} (start : I past c) (steps : List ChannelStep) :
    I (past ++ c.history steps) (c.after steps) := by
  induction steps generalizing past c with
  | nil => simpa [history, after] using start
  | cons s rest ih => simpa [history, after] using ih (step past c s start)

end Performing

section Frames

variable {κ : Type} (c : Channels κ) {n : Nat} {lane : κ}

theorem lane?_eq (e : EndpointId) :
    c.lane? e = (c.routes.get? e).bind fun n => c.lanes[n]?.map fun lane => (n, lane) := by
  unfold lane?
  split <;> simp_all

variable [Queue κ] (s : ChannelStep)

theorem capacity_perform : (perform s c).2.capacity = c.capacity := by
  cases s with
  | send => simp only [perform, send]; split <;> rfl
  | receive => simp only [perform, receive]; split <;> rfl
  | _ => rfl

theorem routes_perform : (perform s c).2.routes =
    match s with
    | .connect e => c.routes.put e c.lanes.length
    | .disconnect e => c.routes.erase e
    | _ => c.routes := by
  cases s with
  | send => simp only [perform, send]; split <;> rfl
  | receive => simp only [perform, receive]; split <;> rfl
  | _ => rfl

theorem length_lanes_perform : (perform s c).2.lanes.length =
    c.lanes.length + s.caller?.toList.length := by
  cases s with
  | send => simp only [perform, send]; split <;> simp [ChannelStep.caller?]
  | receive => simp only [perform, receive]; split <;> simp [ChannelStep.caller?]
  | _ => simp [perform, connect, disconnect, dropReceiver, ChannelStep.caller?]

theorem get?_routes_perform (e : EndpointId) : (perform s c).2.routes.get? e =
    if s = .connect e then some c.lanes.length
    else if s = .disconnect e then none
    else c.routes.get? e := by
  rw [routes_perform]
  cases s with
  | connect e' =>
    by_cases same : e' = e
    · simp [same]
    · simp [same, Entries.get?_put_ne (Ne.symm same)]
  | disconnect e' => simp [Entries.get?_erase, eq_comm]
  | _ => simp

theorem lanes_perform (there : c.lanes[n]? = some lane) : (perform s c).2.lanes[n]? =
    some (match s with
      | .send e message =>
        if c.routes.get? e = some n then (Queue.offer message lane).2 else lane
      | .receive n' => if n' = n then (Queue.take lane).2 else lane
      | .dropReceiver n' => if n' = n then Queue.close lane else lane
      | _ => lane) := by
  have within := (List.getElem?_eq_some_iff.mp there).1
  -- One queue at most is put back changed.
  have back (m : Nat) (q : κ) : (c.lanes.set m q)[n]? = some (if m = n then q else lane) := by
    by_cases same : m = n
    · simp [same, within]
    · rw [List.getElem?_set_ne same, if_neg same, there]
  cases s with
  | connect e => exact (List.getElem?_append_left within).trans there
  | disconnect e => exact there
  | send e message =>
    simp only [perform, send, lane?_eq]
    cases routed : c.routes.get? e with
    | none => simpa using there
    | some m =>
      by_cases same : m = n
      · simpa [same, there] using back n _
      · cases other : c.lanes[m]? with
        | none => simpa [same, other] using there
        | some lane' => simpa [same, other] using back m (Queue.offer message lane').2
  | receive m =>
    by_cases same : m = n
    · simpa [perform, receive, same, there] using back n _
    · simp only [perform, receive]
      cases other : c.lanes[m]? with
      | none => simpa [same] using there
      | some lane' => simpa [same] using back m (Queue.take lane').2
  | dropReceiver m =>
    by_cases same : m = n <;> simp [perform, dropReceiver, there, same]

def given (n : Nat) : List Octets :=
  match s with
  | .send e message =>
    if c.routes.get? e = some n ∧ (c.send e message).1.isOk then [message] else []
  | _ => []

theorem send_eq {e : EndpointId} (routed : c.routes.get? e = some n)
    (there : c.lanes[n]? = some lane) (message : Octets) :
    (c.send e message).1 = (Queue.offer message lane).1.mapError QueueFault.delivery := by
  simp [send, lane?_eq, routed, there]

theorem receive_eq (there : c.lanes[n]? = some lane) :
    (c.receive n).1 = .of (c.isFed n) (Queue.take lane).1 := by simp [receive, there]

theorem send_congr {c' : Channels κ} {e : EndpointId} (same : c'.lane? e = c.lane? e)
    (message : Octets) : (c'.send e message).1 = (c.send e message).1 := by
  simp only [send, same]
  split <;> rfl

theorem receive_congr {c' : Channels κ} (same : c'.lanes[n]? = c.lanes[n]?)
    (fed : c'.isFed n = c.isFed n) : (c'.receive n).1 = (c.receive n).1 := by
  simp only [receive, same, fed]
  split <;> rfl

end Frames

section Holding

variable {κ : Type} [Queue κ] {look : κ → Lane} {c : Channels κ} {n : Nat} {lane : κ} {room : Nat}
  {sent got : List Octets} {gone : Bool}

theorem holds_perform (fifo : Queue.Fifo κ look) (there : c.lanes[n]? = some lane)
    (holds : (look lane).Holds room sent got gone) (s : ChannelStep) :
    ∃ lane', (perform s c).2.lanes[n]? = some lane' ∧
      (look lane').Holds room (sent ++ c.given s n) (got ++ ((c.turn s).received? n).toList)
        (gone || (c.turn s).drops n) := by
  refine ⟨_, lanes_perform c s there, ?_⟩
  cases s with
  | send e message =>
    have none : (c.turn (.send e message)).received? n = none := rfl
    have stays : (c.turn (.send e message)).drops n = false := by
      simp [turn, ChannelTurn.drops]
    simp only [given, none, stays, Option.toList_none, List.append_nil, Bool.or_false]
    by_cases routed : c.routes.get? e = some n
    · have same : (c.send e message).1.isOk = ((look lane).offer message).1.isOk := by
        rw [send_eq c routed there, fifo.offer]
        cases ((look lane).offer message).1 <;> rfl
      simpa [routed, same, fifo.offered] using holds.offer message
    · simpa [routed] using holds
  | receive m =>
    have stays : (c.turn (.receive m)).drops n = false := by
      simp [turn, ChannelTurn.drops]
    simp only [given, stays, List.append_nil, Bool.or_false]
    by_cases same : m = n
    · subst same
      have got : (c.turn (.receive m)).received? m = (look lane).take.1 := by
        simp only [turn, perform, receive_eq c there, fifo.take, ChannelTurn.received?_found,
          if_true]
      simpa [got, fifo.taken] using holds.take
    · have none : (c.turn (.receive m)).received? n = none := by
        simp only [turn, perform, ChannelTurn.received?]
        split <;> simp_all
      simpa [same, none] using holds
  | dropReceiver m =>
    have none (answer : ChannelAnswer) :
        ChannelTurn.received? n ⟨.dropReceiver m, answer⟩ = none := rfl
    by_cases same : m = n
    · subst same
      simpa [given, none, turn, ChannelTurn.drops, fifo.close] using holds.close
    · simpa [same, given, none, turn, ChannelTurn.drops] using holds
  | _ => simpa [given, turn, ChannelTurn.received?, ChannelTurn.drops] using holds

end Holding

end Channels

end SharedObjects
