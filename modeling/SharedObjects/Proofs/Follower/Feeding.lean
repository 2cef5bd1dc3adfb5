import SharedObjects.Proofs.Follower
import SharedObjects.Proofs.Wire.Framing
set_option autoImplicit false

namespace SharedObjects.Follower

open Framer (Unbroken untilLost)

def handleFrames : List Octets → Follower → List (Except Fault Update) × Follower
  | [], f => ([], f)
  | bytes :: rest, f =>
    let (result, f) := (handleBytes bytes).outcome f
    let (results, f) := handleFrames rest f
    (result :: results, f)

def feedAll : List Octets → Follower → List (Except Fault Update) × Follower
  | [], f => ([], f)
  | chunk :: rest, f =>
    let (results, f) := f.feed chunk
    let (more, f) := feedAll rest f
    (results ++ more, f)

def withFramer (f : Follower) (framer : Framer) : Follower := { f with framer := framer }

/-- What is done does not depend on what has arrived, and leaves it as it is. -/
def Apart {α : Type} (action : FollowerAction α) : Prop :=
  ∀ f framer, action.outcome (f.withFramer framer) =
    ((action.outcome f).1, (action.outcome f).2.withFramer framer)

section Rules

variable {α β : Type}

theorem Apart.bind {first : FollowerAction α} {next : α → FollowerAction β} (begins : Apart first)
    (goes : ∀ a, Apart (next a)) : Apart (first >>= next) := by
  intro f framer
  rw [Attempt.outcome_bind, Attempt.outcome_bind, begins f framer]
  rcases first.outcome f with ⟨fault | a, between⟩
  · rfl
  · exact goes a between framer

theorem Apart.done (a : α) : Apart (pure a) := fun _ _ => rfl

theorem Apart.demand (result : Except Fault α) : Apart (Attempt.demand result) := by
  intro f framer
  rw [Attempt.outcome_demand, Attempt.outcome_demand]

theorem Apart.asks {next : Follower → FollowerAction α}
    (blind : ∀ f framer, next (f.withFramer framer) = next f) (goes : ∀ f, Apart (next f)) :
    Apart (get >>= next) := by
  intro f framer
  have looks (g : Follower) : (get >>= next).outcome g = (next g).outcome g := rfl
  rw [looks, looks, blind, goes f f framer]

theorem Apart.changes {change : Follower → Follower}
    (blind : ∀ f framer, change (f.withFramer framer) = (change f).withFramer framer) :
    Apart (modify change) := by
  intro f framer
  rw [Attempt.outcome_ok (Attempt.modify_run _ _), Attempt.outcome_ok (Attempt.modify_run _ _),
    blind]

end Rules

theorem apart_replicaOf (id : ObjectId) : Apart (replicaOf id) := by
  refine .asks (fun _ _ => rfl) fun f => ?_
  cases f.replicas.get? id with
  | none => exact fun _ _ => rfl
  | some r => exact .done r

theorem apart_putReplica (id : ObjectId) (r : Replica) : Apart (putReplica id r) :=
  .changes fun _ _ => rfl

theorem apart_materialize (id : ObjectId) (seq : Seq) (body : Octets) :
    Apart (materialize id seq body) := by
  refine .asks (fun _ _ => rfl) fun f => .bind (.demand _) fun o => ?_
  exact .bind (apart_putReplica _ _) fun _ => .done _

theorem apart_takeEvent (seq : Seq) (body : Octets) : Apart (takeEvent seq body) := by
  refine .asks (fun _ _ => rfl) fun f => .bind (.demand _) fun e => ?_
  refine .bind (apart_replicaOf _) fun r => .bind (.demand _) fun (arrival, sequencer) => ?_
  cases arrival with
  | duplicate => exact .done _
  | buffered => exact .bind (apart_putReplica _ _) fun _ => .done _
  | ready events =>
    refine .bind (apart_putReplica _ _) fun _ => ?_
    exact .bind (.changes fun _ _ => rfl) fun _ => .done _

theorem apart_drop (id : ObjectId) : Apart (drop id) :=
  .bind (apart_replicaOf id) fun _ => .bind (.changes fun _ _ => rfl) fun _ => .done _

theorem apart_handle (m : Message) : Apart (handle m) := by
  cases m with
  | snapshot id seq body => exact apart_materialize id seq body
  | event seq body => exact apart_takeEvent seq body
  | removed id => exact apart_drop id
  | subscribeFailed id reason => exact .done _
  | forwardEvent body => exact fun _ _ => rfl

theorem apart_handleBytes (bytes : Octets) : Apart (handleBytes bytes) :=
  .bind (.demand _) apart_handle

variable {f : Follower} {frames : List Octets}

theorem handleFrames_withFramer (frames : List Octets) (f : Follower) (framer : Framer) :
    (f.withFramer framer).handleFrames frames =
      ((f.handleFrames frames).1, (f.handleFrames frames).2.withFramer framer) := by
  induction frames generalizing f with
  | nil => rfl
  | cons bytes rest ih =>
    simp only [handleFrames, apart_handleBytes bytes f framer, ih]

theorem handleFrames_append (first second : List Octets) (f : Follower) :
    f.handleFrames (first ++ second) =
      ((f.handleFrames first).1 ++ ((f.handleFrames first).2.handleFrames second).1,
        ((f.handleFrames first).2.handleFrames second).2) := by
  induction first generalizing f with
  | nil => rfl
  | cons bytes rest ih => simp only [List.cons_append, handleFrames, ih]

theorem length_handleFrames (frames : List Octets) (f : Follower) :
    (f.handleFrames frames).1.length = frames.length := by
  induction frames generalizing f with
  | nil => rfl
  | cons bytes rest ih => simp only [handleFrames, List.length_cons, ih]

theorem handleArrived_eq {fuel : Nat} (enough : f.framer.buffered < fuel)
    (drained : f.framer.drain.1 = frames.map .ok) :
    handleArrived fuel f = ((f.handleFrames frames).1,
      (f.handleFrames frames).2.withFramer f.framer.drain.2) := by
  induction fuel generalizing f frames with
  | zero => omega
  | succ fuel ih =>
    rw [handleArrived]
    rcases step : f.framer.next with ⟨fault | none | bytes, after⟩
    · rw [Framer.drain_of_error step] at drained
      cases frames <;> cases drained
    · obtain rfl := Framer.eq_of_waits step
      rw [Framer.drain_of_idle step] at drained ⊢
      obtain rfl : frames = [] := by simpa using drained
      rfl
    · rw [Framer.drain_of_some step] at drained ⊢
      obtain ⟨_, rest, rfl, here, later⟩ := List.map_eq_cons_iff.mp drained.symm
      cases here
      -- The rest of the stream is in place by then; the message neither sees nor moves it.
      have fewer := (Framer.of_some step).2
      have handled : (handleBytes bytes).outcome { f with framer := after } =
          (((handleBytes bytes).outcome f).1, ((handleBytes bytes).outcome f).2.withFramer after) :=
        apart_handleBytes bytes f after
      have others := ih (f := ((handleBytes bytes).outcome f).2.withFramer after)
        (show after.buffered < fuel by omega) later.symm
      simp only [handled, others, handleFrames, handleFrames_withFramer]
      rfl

theorem feed_eq {bytes : Octets} (drained : (f.framer.push bytes).drain.1 = frames.map .ok) :
    f.feed bytes = ((f.handleFrames frames).1,
      (f.handleFrames frames).2.withFramer (f.framer.push bytes).drain.2) := by
  have handled := handleArrived_eq (f := f.withFramer (f.framer.push bytes)) (Nat.lt_succ_self _)
    drained
  rw [handleFrames_withFramer] at handled
  exact handled

theorem feedAll_eq {chunks : List Octets}
    (received : (f.framer.receive chunks).1 = frames.map .ok) :
    f.feedAll chunks = ((f.handleFrames frames).1,
      (f.handleFrames frames).2.withFramer (f.framer.receive chunks).2) := by
  induction chunks generalizing f frames with
  | nil =>
    obtain rfl : frames = [] := by simpa [Framer.receive] using received
    rfl
  | cons chunk rest ih =>
    rw [Framer.receive] at received ⊢
    obtain ⟨first, second, rfl, here, later⟩ := List.map_eq_append_iff.mp received.symm
    have fed := feed_eq here.symm
    have others := ih (f := (f.handleFrames first).2.withFramer (f.framer.push chunk).drain.2)
      later.symm
    rw [handleFrames_withFramer] at others
    rw [feedAll, handleFrames_append]
    simp only [fed, others]
    rfl

/-- Nothing depends on how a stream is cut. Frames give the messages in them and leave nothing
behind. Any stream gives the same results up to the first length beyond the limit, and the same
bytes are left over if there is none. A follower fed from a stream handles the messages framed in
it one by one, those that cannot be read included. -/
theorem cut_anyhow :
    (∀ (f : Framer) (messages frames chunks : List Octets), f.limit ≤ maxLength → f.buffer = [] →
      List.Forall₂ (fun message frame => f.frame message = .ok frame) messages frames →
      chunks.flatten = frames.flatten → f.receive chunks = (messages.map .ok, f)) ∧
    (∀ (f : Framer) (chunks chunks' : List Octets), f.Idle ∨ chunks ≠ [] ∧ chunks' ≠ [] →
      chunks.flatten = chunks'.flatten →
      untilLost (f.receive chunks).1 = untilLost (f.receive chunks').1 ∧
      (Unbroken (f.receive chunks).1 → f.receive chunks = f.receive chunks') ∧
      ∀ fault, .error fault ∈ (f.receive chunks).1 →
        ∃ size > f.limit, fault = .format (.frameTooLong size f.limit)) ∧
    (∀ (f : Follower) (chunks chunks' : List Octets),
      f.framer.Idle ∨ chunks ≠ [] ∧ chunks' ≠ [] → chunks.flatten = chunks'.flatten →
      Unbroken (f.framer.receive chunks).1 →
      f.feedAll chunks = f.feedAll chunks' ∧
      ∃ messages, (f.framer.receive chunks).1 = messages.map .ok ∧
        (f.feedAll chunks).1.length = messages.length ∧
        f.feedAll chunks = ((f.handleFrames messages).1,
          (f.handleFrames messages).2.withFramer (f.framer.receive chunks).2)) := by
  refine ⟨fun f messages frames chunks allowed empty framed cut => ?_,
    fun f chunks chunks' start same => ?_, fun f chunks chunks' start same whole => ?_⟩
  · exact Framer.receive_frames allowed empty framed cut
  · have accord := Framer.accord_of_flatten_eq start same
    exact ⟨accord.until_lost, accord.whole, fun fault => Framer.error_mem_receive⟩
  · have received := (Framer.accord_of_flatten_eq start same).whole whole
    obtain ⟨messages, split⟩ := Framer.exists_of_unbroken whole
    have fed := feedAll_eq split
    have fed' := feedAll_eq (received ▸ split)
    rw [← received] at fed'
    refine ⟨fed.trans fed'.symm, messages, split, ?_, fed⟩
    rw [fed, length_handleFrames]

theorem cut_anyhow_spot :
    (Framer.withLimit 2).receive [[0, 0], [], [0, 1, 7, 0, 0, 0], [0]] =
      ([.ok [7], .ok []], Framer.withLimit 2) ∧
    untilLost ((Framer.withLimit 2).receive [[0, 0, 0, 0, 0], [0, 0, 9], [], [0, 0, 0, 0]]).1 =
      untilLost ((Framer.withLimit 2).receive [[0, 0, 0, 0, 0, 0, 0, 9, 0, 0, 0, 0]]).1 ∧
    (Follower.new .initial .default).feedAll [[0, 0, 0], [1, 255, 0], [0, 0, 0]] =
      (Follower.new .initial .default).feedAll [[0, 0, 0, 1, 255, 0, 0, 0, 0]] := by
  have frames := cut_anyhow.1 (.withLimit 2) [[7], []] [[0, 0, 0, 1, 7], [0, 0, 0, 0]]
    [[0, 0], [], [0, 1, 7, 0, 0, 0], [0]] (by decide) rfl (.cons rfl (.cons rfl .nil)) rfl
  have garbage := cut_anyhow.1 .empty [[255], []] [[0, 0, 0, 1, 255], [0, 0, 0, 0]]
    [[0, 0, 0], [1, 255, 0], [0, 0, 0]] (by decide) rfl (.cons rfl (.cons rfl .nil)) rfl
  refine ⟨frames, ?_, ?_⟩
  · refine (cut_anyhow.2.1 (.withLimit 2) _ _ (.inl (Framer.idle_of_empty rfl)) ?_).1
    rfl
  · refine (cut_anyhow.2.2 (.new .initial .default) _ _ (.inl (Framer.idle_of_empty rfl)) rfl ?_).1
    show Unbroken (Framer.receive .empty _).1
    rw [garbage]
    simp [Unbroken]

end SharedObjects.Follower
