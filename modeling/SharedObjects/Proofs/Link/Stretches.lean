import Mathlib.Data.List.Forall2
import Mathlib.Logic.Function.Basic
import SharedObjects.Proofs.Link
/-!
What a link that misbehaves leaves as it should be. The messages that are no events mark off
stretches of events. However a link is used, the marks for an endpoint stand in the order in which
they were accepted, and an event stays in its stretch, though it may change places there.
-/
set_option autoImplicit false

namespace SharedObjects

/-- What can be done with a link. -/
inductive LinkOperation
  | send (e : EndpointId) (message : Octets)
  | setRefusing (e : EndpointId) (refusing : Bool)
  | drain (e : EndpointId)

def LinkFaults.repeated (faults : LinkFaults) (messages : List Octets) : List Octets :=
  messages.flatMap fun m => m :: faults.copies m

theorem LinkFaults.repeated_snoc (faults : LinkFaults) (messages : List Octets) (m : Octets) :
    faults.repeated (messages ++ [m]) = faults.repeated messages ++ m :: faults.copies m := by
  simp [repeated]

theorem LinkFaults.repeated_of_single {faults : LinkFaults} (single : faults.duplicates = false)
    (messages : List Octets) : faults.repeated messages = messages := by
  simp [repeated, copies, single]

namespace Link

/-- The messages that are no events. -/
def marks (queue : List Octets) : List Octets := queue.filter fun m => !isEvent m

/-- The events before the first mark, those between each mark and the next, and those behind the
last. -/
def stretches (queue : List Octets) : List (List Octets) := queue.splitOnP fun m => !isEvent m

theorem marks_repeated (faults : LinkFaults) (messages : List Octets) :
    marks (faults.repeated messages) = faults.repeated (marks messages) := by
  induction messages with
  | nil => rfl
  | cons m messages ih =>
    simp only [marks, LinkFaults.repeated, List.flatMap_cons, List.filter_append] at ih ⊢
    rw [ih]
    by_cases event : isEvent m = true <;> unfold LinkFaults.copies <;> split <;> simp [event]

/-- Each list may be in another order. -/
def Permuted (these those : List (List Octets)) : Prop := List.Forall₂ List.Perm these those

theorem Permuted.refl (these : List (List Octets)) : Permuted these these :=
  List.forall₂_same.mpr fun one _ => .refl one

theorem Permuted.trans {these between those : List (List Octets)} (first : Permuted these between)
    (second : Permuted between those) : Permuted these those := by
  induction first generalizing those with
  | nil => exact second
  | cons permuted _ ih =>
    cases second with
    | cons again second => exact .cons (permuted.trans again) (ih second)

/-- Events have changed places with events beside them. -/
inductive Shuffles : List Octets → List Octets → Prop
  | nil : Shuffles [] []
  | cons {queue due : List Octets} (m : Octets) : Shuffles queue due →
    Shuffles (m :: queue) (m :: due)
  | swap {m n : Octets} (queue : List Octets) : isEvent m = true → isEvent n = true →
    Shuffles (m :: n :: queue) (n :: m :: queue)
  | trans {queue between due : List Octets} : Shuffles queue between → Shuffles between due →
    Shuffles queue due

namespace Shuffles

variable {queue due : List Octets} {m : Octets}

theorem refl (queue : List Octets) : Shuffles queue queue := by
  induction queue with
  | nil => exact .nil
  | cons m queue ih => exact .cons m ih

theorem append (shuffles : Shuffles queue due) (behind : List Octets) :
    Shuffles (queue ++ behind) (due ++ behind) := by
  induction shuffles with
  | nil => exact .refl behind
  | cons m _ ih => exact .cons m ih
  | swap rest first second => exact .swap (rest ++ behind) first second
  | trans _ _ first second => exact .trans first second

theorem after (front : List Octets) (shuffles : Shuffles queue due) :
    Shuffles (front ++ queue) (front ++ due) := by
  induction front with
  | nil => exact shuffles
  | cons m front ih => exact .cons m ih

/-- An event in front of others might as well stand behind them. -/
theorem passing {passed : List Octets} (event : isEvent m = true)
    (events : ∀ n ∈ passed, isEvent n = true) : Shuffles (m :: passed) (passed ++ [m]) := by
  induction passed with
  | nil => exact .refl [m]
  | cons n passed ih =>
    obtain ⟨first, rest⟩ := List.forall_mem_cons.mp events
    exact .trans (.swap passed event first) (.cons n (ih rest))

theorem marks_eq (shuffles : Shuffles queue due) : marks queue = marks due := by
  induction shuffles with
  | nil => rfl
  | cons m _ ih => simp only [marks, List.filter_cons] at ih ⊢; rw [ih]
  | swap rest first second => simp [marks, first, second]
  | trans _ _ first second => exact first.trans second

theorem permuted (shuffles : Shuffles queue due) : Permuted (stretches queue) (stretches due) := by
  induction shuffles with
  | nil => exact Permuted.refl _
  | @cons queue due m _ ih =>
    unfold stretches at ih ⊢
    simp only [List.splitOnP_cons_eq_if_modifyHead]
    -- A mark ends a stretch before all others, an event belongs to the first of them.
    split
    · exact .cons (.refl []) ih
    · generalize List.splitOnP _ queue = these at ih ⊢
      generalize List.splitOnP _ due = those at ih ⊢
      cases ih with
      | nil => exact .nil
      | cons first rest => exact .cons (first.cons m) rest
  | @swap m n rest first second =>
    unfold stretches
    simp only [List.splitOnP_cons_eq_if_modifyHead, first, second]
    generalize List.splitOnP _ rest = these
    cases these with
    | nil => exact .nil
    | cons these others => exact .cons (.swap n m these) (Permuted.refl others)
  | trans _ _ first second => exact Permuted.trans first second

end Shuffles

section Joining

variable {faults : LinkFaults} {m : Octets} {queue after : List Octets}

/-- A message that joined a queue, and what is queued twice of it, might as well have been put at
its end. -/
theorem Joins.shuffles (joins : Joins faults m queue after) :
    Shuffles after (queue ++ m :: faults.copies m) := by
  cases joins with
  | @intro front passed events allowed =>
    -- Whatever the message, it may stay where it is; only an event can have passed some.
    by_cases none : passed = []
    · subst none
      simpa using Shuffles.refl (front ++ m :: faults.copies m)
    · obtain ⟨event, -⟩ := allowed none
      have moved := ((Shuffles.passing event events).after front).append (faults.copies m)
      simpa using moved

theorem Joins.eq_of_still (joins : Joins faults m queue after) (still : faults.jump = 0) :
    after = queue ++ m :: faults.copies m := by
  cases joins with
  | intro _ allowed =>
    obtain rfl := Classical.not_not.mp fun some => (allowed some).2 still
    simp

structure Holds (faults : LinkFaults) (queue accepted : List Octets) : Prop where
  shuffles : Shuffles queue (faults.repeated accepted)
  still : faults.jump = 0 → queue = faults.repeated accepted

theorem Holds.nil (faults : LinkFaults) : Holds faults [] [] := ⟨.nil, fun _ => rfl⟩

theorem Holds.joined {accepted : List Octets} (holds : Holds faults queue accepted)
    (joins : Joins faults m queue after) : Holds faults after (accepted ++ [m]) := by
  refine ⟨?_, fun still => ?_⟩ <;> rw [LinkFaults.repeated_snoc]
  · exact joins.shuffles.trans (holds.shuffles.append _)
  · rw [joins.eq_of_still still, holds.still still]

end Joining

theorem send_answer (e : EndpointId) (m : Octets) (l : Link) :
    (send e m l).1 = if e ∈ l.refusing then .error .disconnected else .ok () := by
  by_cases refuses : e ∈ l.refusing <;> simp [send, refuses]

end Link

/-- A link, what it accepted for each endpoint since that was drained last, and who was set to
refuse everything. -/
structure WatchedLink where
  link : Link
  accepted : EndpointId → List Octets
  refuses : EndpointId → Bool

namespace WatchedLink

def new (faults : LinkFaults) : WatchedLink := ⟨.new faults, fun _ => [], fun _ => false⟩

def next (w : WatchedLink) : LinkOperation → WatchedLink
  | .send e m =>
    { w with
      link := (Link.send e m w.link).2
      accepted := match (Link.send e m w.link).1 with
        | .ok _ => Function.update w.accepted e (w.accepted e ++ [m])
        | .error _ => w.accepted }
  | .setRefusing e refusing =>
    { w with
      link := w.link.setRefusing e refusing
      refuses := Function.update w.refuses e refusing }
  | .drain e =>
    { w with
      link := (w.link.drain e).2
      accepted := Function.update w.accepted e [] }

def run (w : WatchedLink) (operations : List LinkOperation) : WatchedLink :=
  operations.foldl next w

theorem accepted_send (w : WatchedLink) (e other : EndpointId) (m : Octets) :
    (w.next (.send e m)).accepted other =
      if other = e ∧ other ∉ w.link.refusing then w.accepted other ++ [m]
      else w.accepted other := by
  simp only [next, Link.send_answer]
  by_cases same : other = e
  · subst same
    by_cases refuses : other ∈ w.link.refusing <;> simp [refuses]
  · by_cases refuses : e ∈ w.link.refusing <;> simp [refuses, same]

structure Kept (faults : LinkFaults) (w : WatchedLink) : Prop where
  faults_eq : w.link.faults = faults
  holds : ∀ e, Link.Holds faults (w.link.queue e) (w.accepted e)
  refuses_iff : ∀ e, w.refuses e = true ↔ e ∈ w.link.refusing

variable {faults : LinkFaults} {w : WatchedLink}

theorem kept_new (faults : LinkFaults) : Kept faults (new faults) :=
  ⟨rfl, fun _ => .nil faults, by simp [new, Link.new]⟩

theorem Kept.send (kept : Kept faults w) (e : EndpointId) (m : Octets) :
    Kept faults (w.next (.send e m)) := by
  have sent := (Link.send_spec e m w.link).1
  refine ⟨sent.faults.trans kept.faults_eq, fun other => ?_, fun other => ?_⟩
  · show Link.Holds faults ((Link.send e m w.link).2.queue other) _
    rw [accepted_send]
    split
    · rename_i takes
      obtain ⟨rfl, accepts⟩ := takes
      have joined := sent.joins other (by simp) accepts
      rw [kept.faults_eq] at joined
      exact (kept.holds other).joined joined
    · rename_i spared
      rw [sent.rest other (by simpa [imp_iff_not_or] using spared)]
      exact kept.holds other
  · show w.refuses other = true ↔ other ∈ (Link.send e m w.link).2.refusing
    rw [sent.refusing]
    exact kept.refuses_iff other

theorem Kept.setRefusing (kept : Kept faults w) (e : EndpointId) (refusing : Bool) :
    Kept faults (w.next (.setRefusing e refusing)) := by
  refine ⟨kept.faults_eq, kept.holds, fun other => ?_⟩
  have refuses := kept.refuses_iff other
  simp only [next, Link.setRefusing]
  by_cases same : other = e
  · subst same
    cases refusing <;> simp
  · cases refusing <;> simp [same, refuses]

theorem Kept.drain (kept : Kept faults w) (e : EndpointId) :
    Kept faults (w.next (.drain e)) := by
  refine ⟨kept.faults_eq, fun other => ?_, kept.refuses_iff⟩
  simp only [next, Link.queue_drain, Function.update_apply]
  split
  · exact .nil faults
  · exact kept.holds other

theorem Kept.next (kept : Kept faults w) (operation : LinkOperation) :
    Kept faults (w.next operation) := by
  cases operation with
  | send e m => exact kept.send e m
  | setRefusing e refusing => exact kept.setRefusing e refusing
  | drain e => exact kept.drain e

theorem Kept.run (kept : Kept faults w) (operations : List LinkOperation) :
    Kept faults (w.run operations) := by
  induction operations generalizing w with
  | nil => exact kept
  | cons operation operations ih => exact ih (kept.next operation)

end WatchedLink

/-- However a link is used, what is queued for an endpoint is what was accepted for it since it was
drained last: the marks in the same order, and in each stretch the same events. Only those who were
set to refuse are refused, and a message changes no queue but that of who takes it. -/
theorem Link.queues_in_stretches (faults : LinkFaults) (operations : List LinkOperation)
    (e : EndpointId) :
    let w := (WatchedLink.new faults).run operations
    Link.marks (w.link.queue e) = faults.repeated (Link.marks (w.accepted e)) ∧
      Link.Permuted (Link.stretches (w.link.queue e))
        (Link.stretches (faults.repeated (w.accepted e))) ∧
      (faults = .perfect → w.link.queue e = w.accepted e) ∧
      ∀ m, (Link.send e m w.link).1 =
          (if w.refuses e then .error .disconnected else .ok ()) ∧
        ∀ other, other ≠ e ∨ (Link.send e m w.link).1 ≠ .ok () →
          (Link.send e m w.link).2.queue other = w.link.queue other := by
  intro w
  have kept : WatchedLink.Kept faults w := (WatchedLink.kept_new faults).run operations
  have holds := kept.holds e
  refine ⟨?_, holds.shuffles.permuted, ?_, fun m => ⟨?_, fun other spared => ?_⟩⟩
  · rw [holds.shuffles.marks_eq, Link.marks_repeated]
  · rintro rfl
    rw [holds.still rfl, LinkFaults.repeated_of_single rfl]
  · simp only [Link.send_answer, kept.refuses_iff]
  · obtain ⟨sent, taken⟩ := Link.send_spec e m w.link
    by_cases same : other = e
    · subst same
      have refused : other ∈ w.link.refusing := by simpa [taken] using spared
      exact sent.rest other (.inr refused)
    · exact sent.rest other (.inl (by simpa using same))

theorem Link.queues_in_stretches_busy :
    let operations : List LinkOperation := [.setRefusing ⟨8⟩ true, .send ⟨7⟩ [2, 0],
      .send ⟨8⟩ [1], .send ⟨7⟩ [2, 1], .send ⟨7⟩ [1], .send ⟨7⟩ [2, 2]]
    let busy := (WatchedLink.new ⟨1, true⟩).run operations
    let perfect := (WatchedLink.new .perfect).run operations
    busy.link.queue ⟨7⟩ = [[2, 0], [2, 1], [2, 0], [2, 1], [1], [1], [2, 2], [2, 2]] ∧
      Link.marks (busy.link.queue ⟨7⟩) = [[1], [1]] ∧
      Link.Permuted (Link.stretches (busy.link.queue ⟨7⟩))
        [[[2, 0], [2, 0], [2, 1], [2, 1]], [], [[2, 2], [2, 2]]] ∧
      perfect.link.queue ⟨7⟩ = [[2, 0], [2, 1], [1], [2, 2]] ∧
      (Link.send ⟨8⟩ [1] busy.link).1 = .error .disconnected ∧
      (Link.send ⟨8⟩ [1] busy.link).2.queue ⟨8⟩ = busy.link.queue ⟨8⟩ := by
  intro operations busy perfect
  obtain ⟨marks, stretches, -, -⟩ := Link.queues_in_stretches ⟨1, true⟩ operations ⟨7⟩
  obtain ⟨-, -, -, sends⟩ := Link.queues_in_stretches ⟨1, true⟩ operations ⟨8⟩
  obtain ⟨-, -, unmoved, -⟩ := Link.queues_in_stretches .perfect operations ⟨7⟩
  refine ⟨by decide, marks, stretches, unmoved rfl, (sends [1]).1, (sends [1]).2 ⟨8⟩ (.inr ?_)⟩
  decide

end SharedObjects
