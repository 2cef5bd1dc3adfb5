import SharedObjects.Proofs.Hub.Streams
import SharedObjects.Proofs.Members
set_option autoImplicit false

namespace SharedObjects

variable {τ : Type}

namespace Turn

def registration? (t : Turn τ) : Option Handle :=
  match t.operation, t.answer with
  | .register _ h, .ok (.registered _) => some h
  | _, _ => none

def number? (t : Turn τ) (h : Handle) : Option Seq :=
  (t.after.hosted.find? fun entry => entry.2.handle = h).map fun entry => entry.2.last

theorem registration?_eq_some_iff {t : Turn τ} {h : Handle} : t.registration? = some h ↔
    ∃ now id, t.operation = .register now h ∧ t.answer = .ok (.registered id) := by
  unfold registration?
  split
  · rename_i asked given
    simp [asked, given]
  · rename_i other
    simp only [reduceCtorEq, false_iff, not_exists, not_and]
    exact fun now id asked given => other now h id asked given

end Turn

def registrations (turns : List (Turn τ)) : List Handle := turns.filterMap Turn.registration?

/-- The number of an object's last event, also when it is hosted no longer. -/
def lastNumber (turns : List (Turn τ)) (h : Handle) : Seq :=
  (turns.filterMap fun t => t.number? h).getLast?.getD .zero

theorem registrations_snoc (turns : List (Turn τ)) (t : Turn τ) :
    registrations (turns ++ [t]) = registrations turns ++ t.registration?.toList := by
  cases registered : t.registration? <;> simp [registrations, registered]

theorem lastNumber_snoc (turns : List (Turn τ)) (t : Turn τ) (h : Handle) :
    lastNumber (turns ++ [t]) h = (t.number? h).getD (lastNumber turns h) := by
  cases number : t.number? h <;> simp [lastNumber, number]

theorem sum_map_add_ite {α : Type} (f : α → Nat) (p : α → Bool) (as : List α) :
    (as.map fun a => f a + if p a then 1 else 0).sum = (as.map f).sum + as.countP p := by
  induction as with
  | nil => rfl
  | cons a as ih =>
    rw [List.map_cons, List.sum_cons, ih, List.map_cons, List.sum_cons, List.countP_cons]
    omega

namespace Hub

/-- What a hub has kept of the objects that came to be hosted. -/
structure Enrolled (past : List (Turn τ)) (hub : Hub (Recorded τ)) : Prop where
  once : (registrations past).Nodup
  hosted : ∀ id entry, hub.hosted.get? id = some entry → entry.handle ∈ registrations past
  /-- An object that was hosted once is never unregistered again. -/
  stage : ∀ h ∈ registrations past, ∃ o, hub.objectAt? h = some o ∧ o.stage ≠ .unregistered
  numbered : ∀ h, lastNumber past h = .ofNat (publications past h)
  published : hub.tally.published = .ofNat ((registrations past).map (publications past)).sum

theorem enrolled_new (c : Catalog) (carrier : τ) (config : HubConfig) :
    (Hub.new c ⟨carrier, []⟩ config).Enrolled [] where
  once := List.nodup_nil
  hosted := nofun
  stage := nofun
  numbered := fun _ => rfl
  published := rfl

variable [Carrier τ] {hub after : Hub τ} {op : HubOperation} {result : Except Fault HubAnswer}
  {sent : List (EndpointId × Message)} {id : ObjectId}

theorem Outcome.tally_published (outcome : Outcome hub op result sent after) :
    after.tally.published = hub.tally.published + .ofNat (publication? result).toList.length := by
  induction outcome with
  | published | posted => rfl
  | forwarded _ _ _ ih => exact ih
  | _ => exact (UInt64.add_zero _).symm

theorem Outcome.hosts_published (outcome : Outcome hub op result sent after) (order : hub.InOrder)
    (published : publication? result = some id) : ∃ hosted now, hub.hosted.get? id = some hosted ∧
      after.hosted.get? id = some now ∧ now.handle = hosted.handle := by
  have fate := outcome.fate order id
  generalize hub.hosted.get? id = entry at fate
  generalize after.hosted.get? id = entry' at fate
  cases fate with
  | absent unpublished => exact absurd published unpublished
  | arrives asked given =>
    subst given
    cases published
  | @stays hosted now kept handle => exact ⟨hosted, now, rfl, rfl, handle⟩
  | leaves asked removed =>
    cases (Turn.publication?_of_removal? removed).symm.trans published

section Enrolling

variable {past : List (Turn τ)} {t : Turn τ} {sent : List (EndpointId × Message)} {h : Handle}

theorem Enrolled.fresh (enrolled : t.before.Enrolled past) (sends : t.Sends sent)
    (registered : t.registration? = some h) : h ∉ registrations past ∧
      ∃ o, t.before.objectAt? h = some o ∧ o.stage = .unregistered ∧
        ∃ now, t.after.objectAt? h = some now ∧ now.stage = .live := by
  obtain ⟨now, id, asked, given⟩ := Turn.registration?_eq_some_iff.mp registered
  have outcome : Outcome t.before (.register now h) (.ok (.registered id)) sent t.after :=
    asked ▸ given ▸ sends
  obtain ⟨o, shared, unregistered, live⟩ := outcome.registers
  refine ⟨fun mem => ?_, o, shared, unregistered, _, live, rfl⟩
  obtain ⟨p, shared', registered⟩ := enrolled.stage h mem
  obtain rfl : o = p := Option.some.inj (shared.symm.trans shared')
  exact registered unregistered

theorem Enrolled.once_next (enrolled : t.before.Enrolled past) (sends : t.Sends sent) :
    (registrations (past ++ [t])).Nodup := by
  rw [registrations_snoc]
  cases registered : t.registration? with
  | none => simpa using enrolled.once
  | some h =>
    have fresh := (enrolled.fresh sends registered).1
    rw [Option.toList_some, List.nodup_append]
    refine ⟨enrolled.once, List.nodup_singleton h, ?_⟩
    rintro h' mem _ single rfl
    exact fresh (List.mem_singleton.mp single ▸ mem)

theorem Enrolled.hosted_next (enrolled : t.before.Enrolled past) (order : t.before.InOrder)
    (sends : t.Sends sent) {id : ObjectId} {entry : Hosted}
    (held : t.after.hosted.get? id = some entry) :
    entry.handle ∈ registrations (past ++ [t]) := by
  rw [registrations_snoc, List.mem_append]
  obtain ⟨before, there, fate⟩ := Outcome.origin sends order held
  cases fate with
  | @arrives now h asked given =>
    have registered : t.registration? = some h :=
      Turn.registration?_eq_some_iff.mpr ⟨now, id, asked, given⟩
    simp [registered]
  | @stays hosted _ kept handle =>
    rw [handle]
    exact .inl (enrolled.hosted id hosted there)

theorem Enrolled.stage_next (enrolled : t.before.Enrolled past) (sends : t.Sends sent)
    (mem : h ∈ registrations (past ++ [t])) :
    ∃ o, t.after.objectAt? h = some o ∧ o.stage ≠ .unregistered := by
  rw [registrations_snoc, List.mem_append, Option.mem_toList] at mem
  rcases mem with old | new
  · obtain ⟨o, shared, stage⟩ := enrolled.stage h old
    obtain ⟨now, there, ages⟩ := Outcome.ages sends shared
    refine ⟨now, there, ?_⟩
    cases ages with
    | stays _ same => rwa [same]
    | starts => nofun
    | ends => nofun
  · obtain ⟨-, o, -, -, now, there, live⟩ := enrolled.fresh sends new
    exact ⟨now, there, by simp [live]⟩

theorem hosts_of_publishes (order : t.before.InOrder) (sends : t.Sends sent)
    (publishes : t.publishes h) : ∃ id hosted now, publication? t.answer = some id ∧
      t.before.hosted.get? id = some hosted ∧ hosted.handle = h ∧
      t.after.hosted.get? id = some now ∧ now.handle = h := by
  obtain ⟨id, published, named⟩ := Turn.publishes_iff.mp publishes
  obtain ⟨hosted, now, held, there, handle⟩ := Outcome.hosts_published sends order published
  have same : hosted.handle = h := by simpa [handle?, held] using named
  exact ⟨id, hosted, now, published, held, same, there, handle.trans same⟩

theorem Enrolled.numbered_next (enrolled : t.before.Enrolled past)
    (recalls : t.before.Recalls past) (sends : t.Sends sent) (h : Handle) :
    lastNumber (past ++ [t]) h = .ofNat (publications (past ++ [t]) h) := by
  have next := recalls.next sends
  rw [lastNumber_snoc, Turn.number?]
  cases found : t.after.hosted.find? fun entry => entry.2.handle = h with
  | some entry =>
    obtain ⟨id, now⟩ := entry
    have same : now.handle = h := by simpa using List.find?_some found
    have held := next.order.distinct.mem_iff.mp (List.mem_of_find?_eq_some found)
    rw [← same]
    exact next.counted id now held
  | none =>
    have quiet : ¬t.publishes h := fun publishes => by
      obtain ⟨id, -, now, -, -, -, there, handle⟩ :=
        hosts_of_publishes recalls.order sends publishes
      have mem := next.order.distinct.mem_iff.mpr there
      simpa [handle] using List.find?_eq_none.mp found _ mem
    rw [publications_snoc, if_neg quiet]
    exact enrolled.numbered h

/-- Every event that is published is an event of one of the objects that came to be hosted. -/
theorem Enrolled.countP_publishes (enrolled : t.before.Enrolled past) (order : t.before.InOrder)
    (sends : t.Sends sent) : (registrations past).countP (fun h => t.publishes h) =
      (publication? t.answer).toList.length := by
  cases published : publication? t.answer with
  | none => simp [Turn.publishes, published]
  | some id =>
    obtain ⟨hosted, now, held, -⟩ := Outcome.hosts_published sends order published
    have only (h : Handle) : t.publishes h = (h == hosted.handle) := by
      simp [Turn.publishes, published, handle?, held, Bool.beq_eq_decide_eq, eq_comm]
    simp only [only]
    exact List.count_eq_one_of_mem enrolled.once (enrolled.hosted id hosted held)

theorem Enrolled.published_next (enrolled : t.before.Enrolled past)
    (recalls : t.before.Recalls past) (sends : t.Sends sent) : t.after.tally.published =
      .ofNat ((registrations (past ++ [t])).map (publications (past ++ [t]))).sum := by
  have old : .ofNat ((registrations past).map (publications (past ++ [t]))).sum =
      t.after.tally.published := by
    rw [funext (publications_snoc past t), sum_map_add_ite,
      enrolled.countP_publishes recalls.order sends, UInt64.ofNat_add, ← enrolled.published]
    exact (Outcome.tally_published sends).symm
  rw [registrations_snoc, List.map_append, List.sum_append, UInt64.ofNat_add, old]
  cases registered : t.registration? with
  | none => exact (UInt64.add_zero _).symm
  | some h =>
    obtain ⟨-, o, shared, unregistered, -⟩ := enrolled.fresh sends registered
    obtain ⟨now, id, asked, given⟩ := Turn.registration?_eq_some_iff.mp registered
    have quiet : ¬t.publishes h := Turn.not_publishes (by rw [given]; rfl)
    have none : publications past h = 0 := recalls.unpublished h fun p there => by
      obtain rfl : o = p := Option.some.inj (shared.symm.trans there)
      exact unregistered
    simp [publications_snoc, none, quiet]

theorem Enrolled.next (enrolled : t.before.Enrolled past) (recalls : t.before.Recalls past)
    (sends : t.Sends sent) : t.after.Enrolled (past ++ [t]) where
  once := enrolled.once_next sends
  hosted := fun _ _ => enrolled.hosted_next recalls.order sends
  stage := fun _ => enrolled.stage_next sends
  numbered := enrolled.numbered_next recalls sends
  published := enrolled.published_next recalls sends

end Enrolling

end Hub

end SharedObjects
