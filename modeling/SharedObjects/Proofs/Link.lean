import SharedObjects.Proofs.Hub.Operations
import SharedObjects.Link
set_option autoImplicit false

namespace SharedObjects

/-- What is queued behind a message because of duplication. -/
def LinkFaults.copies (faults : LinkFaults) (message : Octets) : List Octets :=
  if faults.duplicates then [message] else []

namespace Link

variable {l after : Link} {e other : EndpointId} {message : Octets}

/-- A queue before and after a message joined it. -/
inductive Joins (faults : LinkFaults) (message : Octets) : List Octets → List Octets → Prop
  | intro {front passed : List Octets} : (∀ m ∈ passed, isEvent m = true) →
    (passed ≠ [] → isEvent message = true ∧ faults.jump ≠ 0) →
    Joins faults message (front ++ passed) (front ++ message :: passed ++ faults.copies message)

theorem isEvent_of_passed (jump : Nat) (queue : List Octets) :
    ∀ m ∈ queue.take (passed jump queue), isEvent m = true := by
  induction queue generalizing jump with
  | nil => simp
  | cons m queue ih =>
    cases jump with
    | zero => simp [passed]
    | succ jump =>
      by_cases event : isEvent m = true
      · simpa [passed, event] using ih jump
      · simp [passed, event]

theorem joins (faults : LinkFaults) (message : Octets) (queue : List Octets) :
    Joins faults message queue
      (insertAhead (passed (if isEvent message then faults.jump else 0) queue.reverse) message queue
        ++ faults.copies message) := by
  generalize count : passed (if isEvent message then faults.jump else 0) queue.reverse = n
  have events : ∀ m ∈ queue.drop (queue.length - n), isEvent m = true := by
    have reversed := isEvent_of_passed (if isEvent message then faults.jump else 0) queue.reverse
    simpa only [count, List.take_reverse, List.mem_reverse] using reversed
  have split := List.take_append_drop (queue.length - n) queue
  have allowed : queue.drop (queue.length - n) ≠ [] → isEvent message = true ∧ faults.jump ≠ 0 := by
    intro some
    have moved : n ≠ 0 := fun zero => some (by simp [zero])
    rw [← count] at moved
    by_cases event : isEvent message = true
    · refine ⟨event, fun still => moved ?_⟩
      simp [event, still, passed]
    · simp [event, passed] at moved
  have joined := @Joins.intro faults message (queue.take (queue.length - n)) _ events allowed
  rwa [split] at joined

structure Sent (message : Octets) (es : List EndpointId) (l after : Link) : Prop where
  faults : after.faults = l.faults
  refusing : after.refusing = l.refusing
  joins : ∀ e ∈ es, e ∉ l.refusing → Joins l.faults message (l.queue e) (after.queue e)
  rest : ∀ e, e ∉ es ∨ e ∈ l.refusing → after.queue e = l.queue e

theorem queue_put (queues : Entries EndpointId (List Octets)) (queue : List Octets) :
    ((queues.put e queue).get? other).getD [] =
      if other = e then queue else (queues.get? other).getD [] := by
  split
  · rename_i same
    subst same
    simp
  · rename_i different
    rw [Entries.get?_put_ne different]

theorem send_spec (e : EndpointId) (message : Octets) (l : Link) :
    Sent message [e] l (send e message l).2 ∧
      ((send e message l).1 = .ok () ↔ e ∉ l.refusing) := by
  by_cases refuses : e ∈ l.refusing
  · have contains : l.refusing.contains e = true := by simpa using refuses
    simp only [send, contains, if_true]
    refine ⟨⟨rfl, rfl, fun other mem accepts => ?_, fun _ _ => rfl⟩, by simp [refuses]⟩
    obtain rfl : other = e := by simpa using mem
    exact absurd refuses accepts
  · have contains : l.refusing.contains e = false := by simpa using refuses
    have queue : (if l.faults.duplicates = true then
          insertAhead (passed (if isEvent message then l.faults.jump else 0) (l.queue e).reverse)
            message (l.queue e) ++ [message]
        else
          insertAhead (passed (if isEvent message then l.faults.jump else 0) (l.queue e).reverse)
            message (l.queue e)) =
        insertAhead (passed (if isEvent message then l.faults.jump else 0) (l.queue e).reverse)
          message (l.queue e) ++ l.faults.copies message := by
      unfold LinkFaults.copies
      split <;> simp
    simp only [send, contains, Bool.false_eq_true, if_false, queue]
    refine ⟨⟨rfl, rfl, fun other mem _ => ?_, fun other kept => ?_⟩, by simp [refuses]⟩
    · obtain rfl : other = e := by simpa using mem
      simp only [Link.queue, queue_put, if_true]
      exact Link.joins _ _ _
    · have different : other ≠ e := by
        rintro rfl
        simp [refuses] at kept
      simp [Link.queue, queue_put, different]

theorem sent_of_ok (taken : Carrier.send e message l = (.ok (), after)) :
    Sent message [e] l after ∧ e ∉ l.refusing := by
  have spec := send_spec e message l
  rw [show send e message l = (.ok (), after) from taken] at spec
  exact ⟨spec.1, spec.2.mp rfl⟩

theorem sent_of_error {fault : DeliveryFault}
    (refused : Carrier.send e message l = (.error fault, after)) :
    Sent message [e] l after ∧ e ∈ l.refusing := by
  have spec := send_spec e message l
  rw [show send e message l = (.error fault, after) from refused] at spec
  refine ⟨spec.1, ?_⟩
  by_contra accepts
  cases spec.2.mpr accepts

theorem sendAll_spec {es : List EndpointId} (distinct : es.Nodup) (message : Octets) (l : Link) :
    Sent message es l (Carrier.sendAll message es l) := by
  induction es generalizing l with
  | nil => exact ⟨rfl, rfl, nofun, fun _ _ => rfl⟩
  | cons e es ih =>
    obtain ⟨absent, distinct⟩ := List.nodup_cons.mp distinct
    have first := (send_spec e message l).1
    have later := ih distinct (send e message l).2
    refine ⟨later.faults.trans first.faults, later.refusing.trans first.refusing, ?_, ?_⟩
    · intro other mem accepts
      show Joins l.faults message _ ((Carrier.sendAll message es (send e message l).2).queue other)
      rcases List.mem_cons.mp mem with rfl | mem
      · rw [later.rest other (.inl absent)]
        exact first.joins other (by simp) accepts
      · have different : other ≠ e := fun same => absent (same ▸ mem)
        have joined := later.joins other mem (by rwa [first.refusing])
        rwa [first.faults, first.rest other (.inl (by simpa using different))] at joined
    · intro other kept
      show (Carrier.sendAll message es (send e message l).2).queue other = _
      have out : other ∉ es ∨ other ∈ l.refusing := kept.imp_left (by simp)
      have different : other ∉ [e] ∨ other ∈ l.refusing := kept.imp_left (by simp; tauto)
      rw [later.rest other (by rwa [first.refusing]), first.rest other different]

theorem queue_drain (l : Link) (e other : EndpointId) :
    (l.drain e).2.queue other = if other = e then [] else l.queue other := by
  simp only [drain, queue, Entries.get?_erase]
  split <;> rfl

end Link

end SharedObjects
