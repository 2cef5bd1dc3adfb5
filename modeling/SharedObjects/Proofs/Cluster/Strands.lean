import SharedObjects.Proofs.Cluster.Stories
import SharedObjects.Proofs.Follower
/-!
One endpoint and one object: what is on its way there, and what the endpoint has of it already. The
events on the way belong to the snapshot before them; and as long as nothing was refused and not too
much comes out of order, what is there and what is on its way add up to all that was published.
-/
set_option autoImplicit false

namespace SharedObjects

/-- What a message tells: an object as it was after so many events, the event with a number, or that
there is no such object any longer. -/
inductive News
  | whole (h : Handle) (n : Nat)
  | change (h : Handle) (n : Nat)
  | gone

namespace News

variable {source : Option Handle} {h : Handle} {n : Nat} {news front passed : List News}

def isChange : News → Bool
  | change _ _ => true
  | _ => false

/-- Every event is one of the object that the snapshot before it shows. -/
def Lawful : Option Handle → List News → Prop
  | _, [] => True
  | _, whole h _ :: news => Lawful (some h) news
  | source, change h _ :: news => source = some h ∧ Lawful source news
  | source, gone :: news => Lawful source news

def sourceAfter : Option Handle → List News → Option Handle
  | source, [] => source
  | _, whole h _ :: news => sourceAfter (some h) news
  | source, _ :: news => sourceAfter source news

theorem sourceAfter_append (source : Option Handle) (front news : List News) :
    sourceAfter source (front ++ news) = sourceAfter (sourceAfter source front) news := by
  induction front generalizing source with
  | nil => rfl
  | cons m front ih => cases m <;> simp [sourceAfter, ih]

theorem lawful_append : Lawful source (front ++ news) ↔
    Lawful source front ∧ Lawful (sourceAfter source front) news := by
  induction front generalizing source with
  | nil => simp [Lawful, sourceAfter]
  | cons m front ih => cases m <;> simp [Lawful, sourceAfter, ih, and_assoc]

theorem sourceAfter_of_changes (changes : ∀ m ∈ news, m.isChange = true) :
    sourceAfter source news = source := by
  induction news with
  | nil => rfl
  | cons m news ih =>
    have rest := ih fun m mem => changes m (by simp [mem])
    cases m with
    | change _ _ => exact rest
    | whole _ _ | gone => simpa [isChange] using changes _ List.mem_cons_self

theorem split_changes {m : News} {ns : List Nat} (notChange : m.isChange = false)
    (split : front ++ m :: ns.map (change h) = news ++ passed)
    (changes : ∀ p ∈ passed, p.isChange = true) : ∃ early late, ns = early ++ late ∧
      news = front ++ m :: early.map (change h) ∧ passed = late.map (change h) := by
  rcases List.append_eq_append_iff.mp split with ⟨rest, whole, parts⟩ | ⟨rest, whole, parts⟩
  · cases rest with
    | nil =>
      have mem : m ∈ passed := by
        rw [← show m :: ns.map (change h) = passed by simpa using parts]
        simp
      rw [changes m mem] at notChange
      cases notChange
    | cons p rest =>
      obtain ⟨same, tail⟩ := List.cons.inj parts
      subst same
      obtain ⟨early, late, rfl, rfl, rfl⟩ := List.map_eq_append_iff.mp tail
      exact ⟨early, late, rfl, whole, rfl⟩
  · have mem : m ∈ passed := by simp [parts]
    rw [changes m mem] at notChange
    cases notChange

end News

/-- Nothing of the object was refused since its last snapshot; and if events overtake one another,
no more were queued at once than can be put in order again. -/
def Account.Dependable (jump : Nat) (a : Account) : Prop :=
  a.refused = false ∧ (jump = 0 ∨ a.widest ≤ SequencerConfig.default.maxPending + 1)

/-- A copy of the object at a handle stands somewhere in its story, and what waits comes later. -/
structure Follows (ss : Stories) (id : ObjectId) (h : Handle) (r : Replica) : Prop where
  tells : ss.Tells h r.sequencer.last.toNat r.object
  named : r.object.id = id
  tidy : r.sequencer.Tidy
  config : r.sequencer.config = .default
  waits : ∀ k item, r.sequencer.pending.get? k = some item → ss.Reports h k.toNat item.2

/-- What is on its way brings a replica to where the story ends: a snapshot and all events behind
it, or all events that the replica lacks. -/
inductive Tracks (ordered : Prop) (window : Nat) (id : ObjectId) (h : Handle) (last : Nat)
    (replica : Option Replica) (news : List News) : Prop
  | anew (front : List News) (seq : Seq) (ns : List Nat) :
    news = front ++ .whole h seq.toNat :: ns.map (.change h) →
    (Sequencer.startAfter id seq .default : Sequencer (Seq × Event)).Due ordered window last ns →
    Tracks ordered window id h last replica news
  | on (r : Replica) (ns : List Nat) : replica = some r → news = ns.map (.change h) →
    r.sequencer.Due ordered window last ns → Tracks ordered window id h last replica news

/-- An endpoint and an object. If the endpoint is owed an object then that is the one it has or will
have, and it will be up to date. -/
structure Strand (ss : Stories) (jump : Nat) (id : ObjectId) (owed : Option (Handle × Nat))
    (account : Account) (source : Option Handle) (replica : Option Replica) (news : List News) :
    Prop where
  lawful : News.Lawful source news
  follows : ∀ r, replica = some r → ∃ h, source = some h ∧ Follows ss id h r
  counted : account.window ≤ account.widest
  sourced : ∀ h last, owed = some (h, last) → News.sourceAfter source news = some h
  tracks : ∀ h last, owed = some (h, last) → account.Dependable jump →
    Tracks (jump = 0) account.window id h last replica news

namespace Follows

variable {ss : Stories} {id : ObjectId} {h : Handle} {r : Replica}

theorem grow {after : Stories} (follows : Follows ss id h r) (grow : ss.Grow after) :
    Follows after id h r :=
  ⟨grow.tells _ _ _ follows.tells, follows.named, follows.tidy, follows.config,
    fun k item waits => grow.reports _ _ _ (follows.waits k item waits)⟩

theorem ofSnapshot {o : SharedObject} {seq : Seq} (tells : ss.Tells h seq.toNat o) :
    Follows ss o.id h ⟨o, .startAfter o.id seq .default⟩ :=
  ⟨tells, rfl, Sequencer.tidy_startAfter _ _ _, rfl, nofun⟩

theorem take {c : Catalog} (valid : ∀ s ∈ ss, s.Valid c) (follows : Follows ss id h r) {seq : Seq}
    {event : Event} (reports : ss.Reports h seq.toNat event) {arrival : Arrival (Seq × Event)}
    {s : Sequencer (Seq × Event)}
    (taken : Sequencer.Taken r.sequencer seq (seq, event) (.ok (arrival, s))) :
    Follows ss id h (r.taking s arrival) ∧
      ∀ events, arrival = .ready events → (r.object.replay events).rejected = [] := by
  have tidy := taken.tidy follows.tidy
  have config := taken.frame.2.trans follows.config
  have waits : ∀ k item, s.pending.get? k = some item → ss.Reports h k.toNat item.2 := by
    intro k item waits
    rcases taken.mem_pending waits with old | ⟨rfl, rfl⟩
    · exact follows.waits k item old
    · exact reports
  cases taken with
  | known _ => exact ⟨⟨follows.tells, follows.named, tidy, config, waits⟩, nofun⟩
  | waits _ _ => exact ⟨⟨follows.tells, follows.named, tidy, config, waits⟩, nofun⟩
  | @ready items final rest place released =>
    have inOrder : ∀ i item, ((seq, event) :: items)[i]? = some item →
        ss.Reports h (r.sequencer.last.toNat + 1 + i) item.2 := by
      intro i item at_
      cases i with
      | zero =>
        obtain rfl : (seq, event) = item := by simpa using at_
        rwa [Nat.add_zero, ← place]
      | succ i =>
        obtain ⟨k, here, waited⟩ := released.item i item (by simpa using at_)
        have reported := follows.waits k item waited
        rwa [here, place, Nat.add_right_comm] at reported
    obtain ⟨tells, kept⟩ := follows.tells.replay valid inOrder
    have reached : final.toNat = r.sequencer.last.toNat + ((seq, event) :: items).length := by
      rw [released.final_eq, place, List.length_cons]
      omega
    refine ⟨⟨?_, ?_, tidy, config, waits⟩, fun events same => by cases same; exact kept⟩
    · show ss.Tells h final.toNat _
      rw [reached]
      exact tells
    · exact (tells.id_eq follows.tells).trans follows.named

end Follows

theorem Tracks.next {ordered : Prop} {window last : Nat} {id : ObjectId} {h : Handle}
    {replica : Option Replica} {m : News} {news : List News}
    (tracks : Tracks ordered window id h last replica (m :: news)) :
    (∀ other, Tracks ordered window id h last other news) ∨
    (∃ seq ns, m = .whole h seq.toNat ∧ news = ns.map (.change h) ∧
      (Sequencer.startAfter id seq .default : Sequencer (Seq × Event)).Due ordered window last ns) ∨
    ∃ r n ns, replica = some r ∧ m = .change h n ∧ news = ns.map (.change h) ∧
      r.sequencer.Due ordered window last (n :: ns) := by
  cases tracks with
  | anew front seq ns is due =>
    cases front with
    | nil =>
      obtain ⟨rfl, rfl⟩ := List.cons.inj is
      exact .inr (.inl ⟨seq, ns, rfl, rfl, due⟩)
    | cons first front =>
      obtain ⟨-, rfl⟩ := List.cons.inj is
      exact .inl fun other => .anew front seq ns rfl due
  | on r ns there is due =>
    cases ns with
    | nil => cases is
    | cons n ns =>
      obtain ⟨rfl, rfl⟩ := List.cons.inj is
      exact .inr (.inr ⟨r, n, ns, there, rfl, rfl, due⟩)

theorem Tracks.join {jump window last : Nat} {id : ObjectId} {h : Handle}
    {replica : Option Replica} {front passed copies : List News}
    (tracks : Tracks (jump = 0) window id h last replica (front ++ passed))
    (changes : ∀ m ∈ passed, m.isChange = true) (kept : passed ≠ [] → jump ≠ 0)
    (copied : copies = [] ∨ copies = [.change h (last + 1)]) :
    Tracks (jump = 0) (window + 1) id h (last + 1) replica
      (front ++ .change h (last + 1) :: passed ++ copies) := by
  obtain ⟨again, rfl, numbers⟩ : ∃ again : List Nat, copies = again.map (.change h) ∧
      (again = [] ∨ again = [last + 1]) := by
    rcases copied with rfl | rfl
    · exact ⟨[], rfl, .inl rfl⟩
    · exact ⟨[last + 1], rfl, .inr rfl⟩
  have inOrder {late : List Nat} (same : passed = late.map (.change h)) : jump = 0 → late = [] := by
    intro zero
    by_contra some
    exact kept (by simpa [same] using some) zero
  cases tracks with
  | anew before seq ns is due =>
    obtain ⟨early, late, rfl, rfl, rfl⟩ := News.split_changes rfl is.symm changes
    exact .anew before seq _ (by simp) (due.publish (inOrder rfl) numbers)
  | on r ns there is due =>
    obtain ⟨early, late, rfl, rfl, rfl⟩ := List.map_eq_append_iff.mp is.symm
    exact .on r _ there (by simp) (due.publish (inOrder rfl) numbers)

namespace Strand

variable {c : Catalog} {ss : Stories} {jump last : Nat} {id : ObjectId}
  {owed : Option (Handle × Nat)} {account : Account} {source : Option Handle}
  {replica : Option Replica} {r : Replica} {news front passed copies : List News} {h : Handle}
  {seq : Seq}

theorem grow {after : Stories} (strand : Strand ss jump id owed account source replica news)
    (grow : ss.Grow after) : Strand after jump id owed account source replica news where
  lawful := strand.lawful
  follows := fun r there =>
    have ⟨h, at_, follows⟩ := strand.follows r there
    ⟨h, at_, follows.grow grow⟩
  counted := strand.counted
  sourced := strand.sourced
  tracks := strand.tracks

/-- An endpoint that is owed nothing may have anything of the past. -/
theorem disown (strand : Strand ss jump id owed account source replica news) :
    Strand ss jump id none account source replica news :=
  ⟨strand.lawful, strand.follows, strand.counted, nofun, nofun⟩

theorem unused (ss : Stories) (jump : Nat) (id : ObjectId) :
    Strand ss jump id none .fresh none none [] :=
  ⟨trivial, nofun, Nat.le_refl _, nofun, nofun⟩

/-! ### Messages arrive -/

theorem whole (strand : Strand ss jump id owed account source replica (.whole h seq.toNat :: news))
    {o : SharedObject} (tells : ss.Tells h seq.toNat o) (named : o.id = id) :
    Strand ss jump id owed account (some h) (some ⟨o, .startAfter id seq .default⟩) news where
  lawful := strand.lawful
  follows := fun r there => by
    cases there
    subst named
    exact ⟨h, rfl, .ofSnapshot tells⟩
  counted := strand.counted
  sourced := strand.sourced
  tracks := fun h' last is sound => by
    obtain later | ⟨seq', ns, same, rfl, due⟩ | ⟨_, _, _, _, same, _⟩ :=
      (strand.tracks h' last is sound).next
    · exact later _
    · obtain ⟨rfl, place⟩ := News.whole.inj same
      exact .on _ ns rfl rfl (Seq.ext place ▸ due)
    · cases same

theorem room (strand : Strand ss jump id owed account source (some r) news)
    (sound : account.Dependable jump) :
    jump = 0 ∨ account.window ≤ r.sequencer.config.maxPending + 1 := by
  obtain ⟨h, _, follows⟩ := strand.follows r rfl
  rw [follows.config]
  exact sound.2.imp_right strand.counted.trans

theorem skip (strand : Strand ss jump id owed account source none (.change h last :: news)) :
    Strand ss jump id owed account source none news where
  lawful := strand.lawful.2
  follows := nofun
  counted := strand.counted
  sourced := strand.sourced
  tracks := fun h' last is sound => by
    rcases (strand.tracks h' last is sound).next with later | ⟨_, _, same, _⟩ | ⟨_, _, _, there, _⟩
    · exact later _
    · cases same
    · cases there

theorem refuse
    (strand : Strand ss jump id owed account source (some r) (.change h seq.toNat :: news))
    {item : Seq × Event} {fault : Fault} (refused : r.sequencer.accept seq item = .error fault) :
    Strand ss jump id owed account source (some r) news where
  lawful := strand.lawful.2
  follows := strand.follows
  counted := strand.counted
  sourced := strand.sourced
  tracks := fun h' last is sound => by
    obtain later | ⟨_, _, same, _⟩ | ⟨r', n, ns, there, same, rfl, due⟩ :=
      (strand.tracks h' last is sound).next
    · exact later _
    · cases same
    · cases there
      obtain ⟨rfl, rfl⟩ := News.change.inj same
      obtain ⟨_, _, accepted, _⟩ := due.accept (strand.room sound) item
      cases refused.symm.trans accepted

theorem take (strand : Strand ss jump id owed account source (some r) (.change h seq.toNat :: news))
    (valid : ∀ s ∈ ss, s.Valid c) {event : Event} (reports : ss.Reports h seq.toNat event)
    {arrival : Arrival (Seq × Event)} {s : Sequencer (Seq × Event)}
    (accepted : r.sequencer.accept seq (seq, event) = .ok (arrival, s)) :
    Strand ss jump id owed account source (some (r.taking s arrival)) news ∧
      ∀ events, arrival = .ready events → (r.object.replay events).rejected = [] := by
  obtain ⟨h', sourced, follows⟩ := strand.follows r rfl
  obtain rfl : h' = h := Option.some.inj (sourced.symm.trans strand.lawful.1)
  have taken := Sequencer.accept_spec follows.tidy seq (seq, event)
  rw [accepted] at taken
  obtain ⟨follows', kept⟩ := follows.take valid reports taken
  refine ⟨⟨strand.lawful.2, ?_, strand.counted, strand.sourced, ?_⟩, kept⟩
  · rintro _ ⟨⟩
    exact ⟨h', sourced, follows'⟩
  · intro h'' last is sound
    -- Whatever comes before the snapshot of the object that is owed may go either way.
    obtain later | ⟨_, _, same, _⟩ | ⟨r', n, ns, there, same, rfl, due⟩ :=
      (strand.tracks h'' last is sound).next
    · exact later _
    · cases same
    · cases there
      obtain ⟨rfl, rfl⟩ := News.change.inj same
      obtain ⟨arrival', s', accepted', _, due'⟩ := due.accept (strand.room sound) (seq, event)
      cases accepted.symm.trans accepted'
      refine .on _ ns rfl rfl ?_
      cases arrival <;> exact due'

theorem gone (strand : Strand ss jump id owed account source replica (.gone :: news)) :
    Strand ss jump id owed account source none news where
  lawful := strand.lawful
  follows := nofun
  counted := strand.counted
  sourced := strand.sourced
  tracks := fun h' last is sound => by
    obtain later | ⟨_, _, same, _⟩ | ⟨_, _, _, _, same, _⟩ := (strand.tracks h' last is sound).next
    · exact later _
    · cases same
    · cases same

theorem upToDate (strand : Strand ss jump id (some (h, last)) account source replica [])
    (sound : account.Dependable jump) : ∃ r, replica = some r ∧ Follows ss id h r ∧
      r.sequencer.last.toNat = last ∧ r.sequencer.pending = [] := by
  have sourced : source = some h := strand.sourced h last rfl
  cases strand.tracks h last rfl sound with
  | anew _ _ _ is _ => simp at is
  | on r ns there is due =>
    obtain rfl : ns = [] := by simpa using is
    obtain ⟨h', at_, follows⟩ := strand.follows r there
    obtain rfl : h' = h := Option.some.inj (at_.symm.trans sourced)
    exact ⟨r, there, follows, due.done⟩

theorem emptied (strand : Strand ss jump id owed account source replica []) :
    Strand ss jump id owed account.emptied source replica [] where
  lawful := trivial
  follows := strand.follows
  counted := Nat.zero_le _
  sourced := strand.sourced
  tracks := fun h last is sound => by
    subst is
    obtain ⟨r, there, follows, rfl, empty⟩ := strand.upToDate sound
    exact .on r [] there rfl (.of_last follows.tidy empty 0)

/-! ### Messages join the queue -/

theorem joinWhole (strand : Strand ss jump id owed account source replica news) (h : Handle)
    (seq : Seq) (copied : copies = [] ∨ copies = [.whole h seq.toNat]) :
    Strand ss jump id (some (h, seq.toNat)) .fresh source replica
      (news ++ .whole h seq.toNat :: copies) where
  lawful := by
    refine News.lawful_append.mpr ⟨strand.lawful, ?_⟩
    rcases copied with rfl | rfl <;> exact trivial
  follows := strand.follows
  counted := Nat.le_refl _
  sourced := fun h' last same => by
    cases same
    rw [News.sourceAfter_append]
    rcases copied with rfl | rfl <;> rfl
  tracks := fun h' last same _ => by
    cases same
    have due : (Sequencer.startAfter id seq .default : Sequencer (Seq × Event)).Due (jump = 0) 0
        seq.toNat [] := .of_last (Sequencer.tidy_startAfter _ _ _) rfl 0
    rcases copied with rfl | rfl
    · exact .anew news seq [] rfl due
    · exact .anew (news ++ [.whole h seq.toNat]) seq [] (by simp) due

theorem joinChange
    (strand : Strand ss jump id (some (h, last)) account source replica (front ++ passed))
    (changes : ∀ m ∈ passed, m.isChange = true) (kept : passed ≠ [] → jump ≠ 0)
    (copied : copies = [] ∨ copies = [.change h (last + 1)]) :
    Strand ss jump id (some (h, last + 1)) account.queued source replica
      (front ++ .change h (last + 1) :: passed ++ copies) where
  lawful := by
    obtain ⟨before, behind⟩ := News.lawful_append.mp strand.lawful
    have sourced := strand.sourced h last rfl
    rw [News.sourceAfter_append, News.sourceAfter_of_changes changes] at sourced
    rw [List.append_assoc]
    refine News.lawful_append.mpr ⟨before, sourced, News.lawful_append.mpr ⟨behind, ?_⟩⟩
    rw [News.sourceAfter_of_changes changes]
    rcases copied with rfl | rfl
    · trivial
    · exact ⟨sourced, trivial⟩
  follows := strand.follows
  counted := Nat.le_max_right _ _
  sourced := fun h' last' same => by
    cases same
    have sourced := strand.sourced h last rfl
    rw [News.sourceAfter_append, News.sourceAfter_of_changes changes] at sourced
    rw [List.append_assoc, News.sourceAfter_append, News.sourceAfter_of_changes, sourced]
    intro m mem
    rcases List.mem_cons.mp mem with rfl | mem
    · rfl
    · rcases List.mem_append.mp mem with old | new
      · exact changes m old
      · rcases copied with rfl | rfl
        · cases new
        · rw [List.mem_singleton.mp new]
          rfl
  tracks := fun h' last' same sound => by
    cases same
    -- The account has only become worse by this event.
    have before : account.Dependable jump :=
      ⟨sound.1, sound.2.imp_right (le_trans (Nat.le_max_left _ _))⟩
    exact (strand.tracks h last rfl before).join changes kept copied

theorem missChange (strand : Strand ss jump id (some (h, last)) account source replica news) :
    Strand ss jump id (some (h, last + 1)) { account with refused := true } source replica news
    where
  lawful := strand.lawful
  follows := strand.follows
  counted := strand.counted
  sourced := fun h' last' same => by
    cases same
    exact strand.sourced h last rfl
  tracks := fun _ _ _ sound => by cases sound.1

theorem joinGone (strand : Strand ss jump id owed account source replica news)
    (copied : copies = [] ∨ copies = [.gone]) :
    Strand ss jump id none account source replica (news ++ .gone :: copies) where
  lawful := by
    refine News.lawful_append.mpr ⟨strand.lawful, ?_⟩
    rcases copied with rfl | rfl <;> exact trivial
  follows := strand.follows
  counted := strand.counted
  sourced := nofun
  tracks := nofun

end Strand

end SharedObjects
