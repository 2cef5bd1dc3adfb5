import SharedObjects.Proofs.Hub.Subscribers
import SharedObjects.Proofs.Steps
/-!
Subscriptions as their history has them. Whatever is asked of the subscribers of an object, those
that stand are the endpoints added last and not removed since, in the order in which they were
added. Whoever took note of a subscription can tell by its flag whether it was ended meanwhile;
that its endpoint has come back makes no difference.
-/
set_option autoImplicit false

namespace SharedObjects

inductive SubscribersCall
  | add (e : EndpointId)
  | remove (e : EndpointId)
  | clear
  | snapshot
  deriving DecidableEq

inductive SubscribersAnswer
  | changed (did : Bool)
  | dismissed (es : List EndpointId)
  | noted (subs : List Subscription)
  deriving DecidableEq

structure SubscribersTurn where
  call : SubscribersCall
  answer : SubscribersAnswer
  deriving DecidableEq

namespace SubscribersTurn

def Adds (t : SubscribersTurn) (e : EndpointId) : Prop := t = ⟨.add e, .changed true⟩

def Ends (t : SubscribersTurn) (e : EndpointId) : Prop :=
  t = ⟨.remove e, .changed true⟩ ∨ t.call = .clear

end SubscribersTurn

/-- The endpoint was added in the turn at this place, and neither added nor removed since. -/
def AddedLast (past : List SubscribersTurn) (place : Nat) (e : EndpointId) : Prop :=
  ∃ before adding since, past = before ++ adding :: since ∧ before.length = place ∧
    adding.Adds e ∧ ∀ t ∈ since, ¬t.Adds e ∧ ¬t.Ends e

namespace AddedLast

variable {past : List SubscribersTurn} {t : SubscribersTurn} {place : Nat} {e : EndpointId}

theorem lt_length (added : AddedLast past place e) : place < past.length := by
  obtain ⟨before, adding, since, rfl, rfl, -⟩ := added
  simp

theorem snoc_iff : AddedLast (past ++ [t]) place e ↔
    (t.Adds e ∧ place = past.length) ∨ (¬t.Adds e ∧ ¬t.Ends e ∧ AddedLast past place e) := by
  constructor
  · rintro ⟨before, adding, since, split, rfl, adds, quiet⟩
    rcases snoc_eq_split_iff.mp split with ⟨rfl, rfl, rfl⟩ | ⟨rest, rfl, rfl⟩
    · exact .inl ⟨adds, rfl⟩
    · obtain ⟨unadded, unended⟩ := quiet t (by simp)
      exact .inr ⟨unadded, unended, before, adding, rest, rfl, rfl, adds,
        fun u mem => quiet u (by simp [mem])⟩
  · rintro (⟨adds, rfl⟩ | ⟨unadded, unended, before, adding, since, rfl, rfl, adds, quiet⟩)
    · exact ⟨past, t, [], rfl, rfl, adds, by simp⟩
    · refine ⟨before, adding, since ++ [t], by simp, rfl, adds, fun u mem => ?_⟩
      rcases List.mem_append.mp mem with old | new
      · exact quiet u old
      · rw [List.mem_singleton.mp new]
        exact ⟨unadded, unended⟩

theorem snoc_iff_of_idle (idle : ∀ e, ¬t.Adds e ∧ ¬t.Ends e) :
    AddedLast (past ++ [t]) place e ↔ AddedLast past place e := by
  rw [snoc_iff]
  simp [idle e]

end AddedLast

namespace Subscribers

variable {s : Subscribers} {sub : Subscription} {past : List SubscribersTurn}

def perform (call : SubscribersCall) (s : Subscribers) : SubscribersAnswer × Subscribers :=
  match call with
  | .add e => (.changed (s.add e).1, (s.add e).2)
  | .remove e => (.changed (s.remove e).1, (s.remove e).2)
  | .clear => (.dismissed s.clear.1, s.clear.2)
  | .snapshot => (.noted s.snapshot, s)

def turn (s : Subscribers) (call : SubscribersCall) : SubscribersTurn := ⟨call, (s.perform call).1⟩

def history (s : Subscribers) : List SubscribersCall → List SubscribersTurn
  | [] => []
  | call :: rest => s.turn call :: (s.perform call).2.history rest

def after (s : Subscribers) (calls : List SubscribersCall) : Subscribers :=
  calls.foldl (fun s call => (s.perform call).2) s

theorem run_induction {I : List SubscribersTurn → Subscribers → Prop}
    (step : ∀ past s call, I past s → I (past ++ [s.turn call]) (s.perform call).2)
    (start : I past s) (calls : List SubscribersCall) :
    I (past ++ s.history calls) (s.after calls) := by
  induction calls generalizing past s with
  | nil => simpa [history, after] using start
  | cons call rest ih => simpa [history, after] using ih (step past s call start)

/-- What a call can do: add an endpoint that was not there, end the subscriptions of the endpoints
that the turn is said to end, or nothing. -/
inductive Steps (s : Subscribers) : SubscribersTurn → Subscribers → Prop
  | adds {e : EndpointId} (fresh : e ∉ s.endpoints) : Steps s ⟨.add e, .changed true⟩
    ⟨s.standing ++ [⟨e, s.flags.size⟩], s.flags.push true⟩
  | ends {t : SubscribersTurn} {leaves : Subscription → Bool}
    (leave : ∀ sub, leaves sub = true ↔ t.Ends sub.endpoint) (unadded : ∀ e, ¬t.Adds e) :
    Steps s t (s.cancel leaves)
  | idle {t : SubscribersTurn} (idle : ∀ e, ¬t.Adds e ∧ ¬t.Ends e) : Steps s t s

theorem steps_perform (s : Subscribers) (call : SubscribersCall) :
    s.Steps (s.turn call) (s.perform call).2 := by
  cases call with
  | add e =>
    by_cases there : e ∈ s.endpoints
    · simp only [turn, perform, add_of_mem there]
      exact .idle fun _ => by simp [SubscribersTurn.Adds, SubscribersTurn.Ends]
    · simp only [turn, perform, add_of_not_mem there]
      exact .adds there
  | remove e =>
    by_cases there : e ∈ s.endpoints
    · have left : s.contains e = true := by simpa [contains] using there
      simp only [turn, perform, remove, left]
      exact .ends (by simp [SubscribersTurn.Ends, eq_comm]) (by simp [SubscribersTurn.Adds])
    · simp only [turn, perform, remove_of_not_mem there]
      exact .idle fun _ => by simp [SubscribersTurn.Adds, SubscribersTurn.Ends]
  | clear =>
    exact .ends (by simp [turn, SubscribersTurn.Ends]) (by simp [turn, SubscribersTurn.Adds])
  | snapshot =>
    exact .idle fun _ => by simp [turn, SubscribersTurn.Adds, SubscribersTurn.Ends]

theorem Steps.tidy {t : SubscribersTurn} {after : Subscribers} (steps : s.Steps t after)
    (tidy : s.Tidy) : after.Tidy := by
  cases steps with
  | @adds e fresh => simpa only [add_of_not_mem fresh] using tidy.add e
  | ends => exact tidy.cancel _
  | idle => exact tidy

theorem Steps.down {t : SubscribersTurn} {after : Subscribers} {flag : Nat}
    (steps : s.Steps t after) (down : s.flags[flag]? = some false) :
    after.flags[flag]? = some false := by
  cases steps with
  | adds =>
    have below : flag < s.flags.size := (Array.getElem?_eq_some_iff.mp down).1
    rw [Array.getElem?_push, if_neg (Nat.ne_of_lt below), down]
  | ends =>
    rw [cancel, getElem?_lowered, down]
    rfl
  | idle => exact down

theorem down_after {flag : Nat} (down : s.flags[flag]? = some false)
    (calls : List SubscribersCall) : (s.after calls).flags[flag]? = some false := by
  induction calls generalizing s with
  | nil => exact down
  | cons call rest ih => exact ih ((steps_perform s call).down down)

/-- A subscription taken note of before these turns stands, if none of them ended it, and else its
flag is down. -/
inductive Traced (s : Subscribers) (since : List SubscribersTurn) (sub : Subscription) : Prop
  | stands (there : sub ∈ s.standing) (kept : ∀ t ∈ since, ¬t.Ends sub.endpoint)
  | ended (down : s.flags[sub.flag]? = some false) (ends : ∃ t ∈ since, t.Ends sub.endpoint)

namespace Traced

variable {since : List SubscribersTurn} {t : SubscribersTurn} {after : Subscribers}

theorem next (traced : s.Traced since sub) (tidy : s.Tidy) (steps : s.Steps t after) :
    after.Traced (since ++ [t]) sub := by
  cases traced with
  | ended down ends =>
    obtain ⟨u, mem, ends⟩ := ends
    exact .ended (steps.down down) ⟨u, by simp [mem], ends⟩
  | stands there kept =>
    have still (unended : ¬t.Ends sub.endpoint) :
        ∀ u ∈ since ++ [t], ¬u.Ends sub.endpoint :=
      List.forall_mem_append.mpr ⟨kept, by simpa using unended⟩
    cases steps with
    | adds fresh => exact .stands (by simp [there]) (still (by simp [SubscribersTurn.Ends]))
    | @ends _ leaves leave _ =>
      by_cases ends : t.Ends sub.endpoint
      · refine .ended ?_ ⟨t, by simp, ends⟩
        rw [tidy.flags_cancel leaves there, (leave sub).mpr ends]
        rfl
      · have stays : leaves sub = false := Bool.eq_false_iff.mpr (mt (leave sub).mp ends)
        exact .stands (by simp [cancel, there, stays]) (still ends)
    | idle idle => exact .stands there (still (idle sub.endpoint).2)

theorem isActive_iff (traced : s.Traced since sub) (tidy : s.Tidy) :
    s.isActive sub = true ↔ ∀ t ∈ since, ¬t.Ends sub.endpoint := by
  rw [Subscribers.isActive_iff]
  cases traced with
  | stands there kept => simpa [tidy.up sub there] using kept
  | ended down ends => simpa [down] using ends

end Traced

def Lists (past : List SubscribersTurn) (es : List EndpointId) : Prop :=
  ∃ added : List (Nat × EndpointId), added.Pairwise (fun one other => one.1 < other.1) ∧
    (∀ place e, (place, e) ∈ added ↔ AddedLast past place e) ∧ es = added.map Prod.snd

theorem lists_nil : Lists [] [] :=
  ⟨[], .nil, fun _ _ => ⟨nofun, fun added => absurd added.lt_length (Nat.not_lt_zero _)⟩, rfl⟩

theorem Lists.next {t : SubscribersTurn} {after : Subscribers} (lists : Lists past s.endpoints)
    (steps : s.Steps t after) : Lists (past ++ [t]) after.endpoints := by
  obtain ⟨added, order, all, listed⟩ := lists
  cases steps with
  | @adds e fresh =>
    have adds (e' : EndpointId) :
        (SubscribersTurn.mk (.add e) (.changed true)).Adds e' ↔ e' = e := by
      simp [SubscribersTurn.Adds, eq_comm]
    refine ⟨added ++ [(past.length, e)], ?_, fun place e' => ?_, by simp [endpoints, ← listed]⟩
    · refine List.pairwise_append.mpr ⟨order, List.pairwise_singleton _ _, ?_⟩
      rintro ⟨place, e'⟩ mem _ last
      rw [List.mem_singleton.mp last]
      exact ((all place e').mp mem).lt_length
    · rw [AddedLast.snoc_iff, adds, ← all, List.mem_append, List.mem_singleton, Prod.mk.injEq]
      have elsewhere : (place, e') ∈ added → e' ≠ e := fun mem same =>
        fresh (listed ▸ same ▸ List.mem_map_of_mem mem)
      have unended : ¬(SubscribersTurn.mk (.add e) (.changed true)).Ends e' := by
        simp [SubscribersTurn.Ends]
      constructor
      · rintro (old | ⟨rfl, rfl⟩)
        · exact .inr ⟨elsewhere old, unended, old⟩
        · exact .inl ⟨rfl, rfl⟩
      · rintro (⟨rfl, rfl⟩ | ⟨-, -, old⟩)
        · exact .inr ⟨rfl, rfl⟩
        · exact .inl old
  | @ends _ leaves leave unadded =>
    classical
    refine ⟨added.filter fun a => ¬t.Ends a.2, order.filter _, fun place e => ?_, ?_⟩
    · rw [AddedLast.snoc_iff, List.mem_filter, all]
      simp [unadded, and_comm]
    · have stay (sub : Subscription) : (!leaves sub) = decide (¬t.Ends sub.endpoint) := by
        rw [Bool.eq_iff_iff]
        simp [← leave]
      have kept : (s.cancel leaves).endpoints = s.endpoints.filter fun e => ¬t.Ends e := by
        simp only [endpoints, cancel, stay, List.filter_map]
        rfl
      rw [kept, listed, List.filter_map]
      rfl
  | idle idle =>
    exact ⟨added, order, fun place e => (all place e).trans (AddedLast.snoc_iff_of_idle idle).symm,
      listed⟩

structure Recounts (past : List SubscribersTurn) (s : Subscribers) : Prop where
  tidy : s.Tidy
  lists : Lists past s.endpoints
  traced : ∀ before subs since, past = before ++ ⟨.snapshot, .noted subs⟩ :: since →
    ∀ sub ∈ subs, s.Traced since sub

namespace Recounts

theorem begin : Recounts [] none := ⟨tidy_none, lists_nil, by simp⟩

theorem next (recounts : Recounts past s) (call : SubscribersCall) :
    Recounts (past ++ [s.turn call]) (s.perform call).2 where
  tidy := (steps_perform s call).tidy recounts.tidy
  lists := recounts.lists.next (steps_perform s call)
  traced := by
    intro before subs since split sub mem
    rcases snoc_eq_split_iff.mp split with ⟨rfl, rfl, noted⟩ | ⟨rest, rfl, rfl⟩
    · obtain rfl : .snapshot = call := congrArg SubscribersTurn.call noted
      obtain rfl : subs = s.snapshot := by simpa [turn, perform] using noted
      exact .stands mem nofun
    · exact (recounts.traced before subs rest rfl sub mem).next recounts.tidy
        (steps_perform s call)

theorem after (recounts : Recounts past s) (calls : List SubscribersCall) :
    Recounts (past ++ s.history calls) (s.after calls) :=
  run_induction (fun _ _ call recounts => recounts.next call) recounts calls

end Recounts

/-- A call says yes exactly if there is something to do, which leaves other endpoints; and if it
says no it has done nothing. -/
structure Tells (s : Subscribers) (due : Prop) (answered : Bool × Subscribers) : Prop where
  due_iff : answered.1 = true ↔ due
  changed_iff : answered.1 = true ↔ answered.2.endpoints ≠ s.endpoints
  idle : answered.1 = false → answered.2 = s

theorem tells_add (s : Subscribers) (e : EndpointId) : s.Tells (e ∉ s.endpoints) (s.add e) := by
  by_cases there : e ∈ s.endpoints
  · rw [add_of_mem there]
    exact ⟨by simp [there], by simp, fun _ => rfl⟩
  · rw [add_of_not_mem there]
    exact ⟨by simp [there], by simp [endpoints], nofun⟩

theorem tells_remove (s : Subscribers) (e : EndpointId) :
    s.Tells (e ∈ s.endpoints) (s.remove e) := by
  by_cases there : e ∈ s.endpoints
  · have gone : (s.remove e).2.endpoints ≠ s.endpoints := fun same =>
      (mem_endpoints_remove.mp (same ▸ there)).2 rfl
    have yes : (s.remove e).1 = true := by simpa [remove, contains] using there
    exact ⟨by simp [yes, there], by simp [yes, gone], by simp [yes]⟩
  · rw [remove_of_not_mem there]
    exact ⟨by simp [there], by simp, fun _ => rfl⟩

/-- What the turns so far tell of the subscribers after them. -/
structure Told (past : List SubscribersTurn) (s : Subscribers) : Prop where
  distinct : s.endpoints.Nodup
  lists : Lists past s.endpoints
  adds : ∀ e, s.Tells (e ∉ s.endpoints) (s.add e)
  removes : ∀ e, s.Tells (e ∈ s.endpoints) (s.remove e)
  clears : s.clear.1 = s.endpoints ∧ s.clear.2.endpoints = []
  notes : s.snapshot.map Subscription.endpoint = s.endpoints
  active : ∀ sub ∈ s.snapshot, s.isActive sub = true
  /-- A subscription that was taken note of is active if no turn since then has ended it. -/
  noted : ∀ before subs since, past = before ++ ⟨.snapshot, .noted subs⟩ :: since →
    ∀ sub ∈ subs, s.isActive sub = true ↔ ∀ t ∈ since, ¬t.Ends sub.endpoint
  /-- Once it was ended it is none of those that stand, its endpoint's next one included, and stays
  inactive whatever is asked. -/
  ended : ∀ before subs since, past = before ++ ⟨.snapshot, .noted subs⟩ :: since →
    ∀ sub ∈ subs, (∃ t ∈ since, t.Ends sub.endpoint) →
      sub ∉ s.snapshot ∧ ∀ calls, (s.after calls).isActive sub = false

/-- Whatever has been asked of new subscribers: no endpoint stands twice, and those that stand are
the ones added last and not removed since, in the order of being added. Who is not there is added
and who is there removed, calls say whether they have changed anything, and dismissing all names
them in order. All that stand are active, and of those ever taken note of exactly the ones that
were not ended since; these never are again, even if their endpoints come back. -/
theorem told_of_history (calls : List SubscribersCall) :
    Told (none.history calls) (none.after calls) := by
  have recounts : Recounts (none.history calls) (none.after calls) := by
    simpa using Recounts.begin.after calls
  generalize none.after calls = s at recounts
  have active (sub : Subscription) (mem : sub ∈ s.snapshot) : s.isActive sub = true :=
    isActive_iff.mpr (recounts.tidy.up sub mem)
  exact {
    distinct := recounts.tidy.distinct
    lists := recounts.lists
    adds := tells_add s
    removes := tells_remove s
    clears := ⟨rfl, by simp [clear, cancel, endpoints]⟩
    notes := rfl
    active := active
    noted := fun before subs since split sub mem =>
      (recounts.traced before subs since split sub mem).isActive_iff recounts.tidy
    ended := by
      intro before subs since split sub mem ends
      cases recounts.traced before subs since split sub mem with
      | stands _ kept =>
        obtain ⟨t, turned, ended⟩ := ends
        exact absurd ended (kept t turned)
      | ended down _ =>
        have inactive (more : List SubscribersCall) : (s.after more).isActive sub = false := by
          rw [isActive, Array.getD_eq_getD_getElem?, down_after down more]
          rfl
        refine ⟨fun there => ?_, inactive⟩
        exact Bool.false_ne_true ((inactive []).symm.trans (active sub there)) }

/-- Of two subscriptions taken note of, one is ended; its endpoint is back in a turn. -/
example :
    let s := none.after [.add ⟨1⟩, .add ⟨2⟩, .snapshot, .remove ⟨2⟩, .add ⟨2⟩, .add ⟨1⟩]
    (none.after [.add ⟨1⟩, .add ⟨2⟩]).snapshot.map s.isActive = [true, false] ∧
      s.endpoints = [⟨1⟩, ⟨2⟩] ∧ s.snapshot.map s.isActive = [true, true] := by decide

end Subscribers

end SharedObjects
