import SharedObjects.Proofs.Cluster.Reception
set_option autoImplicit false

namespace SharedObjects.Expects

open Parcel

variable {c : Catalog} {ss : Stories} {faults : LinkFaults}
  {owed promised : ObjectId → Option (Handle × Nat)} {view seen : View} {client : Option Follower}
  {queue longer : List Octets} {bytes : Octets} {ps : List Parcel} {id : ObjectId} {m : News}
  {jump : Nat}

theorem grow {after : Stories} (expects : Expects c ss jump owed view client queue ps)
    (grow : ss.Grow after) : Expects c after jump owed view client queue ps where
  carries := expects.carries.imp fun _ _ carries => carries.grow grow
  underway := expects.underway
  strands := fun id => (expects.strands id).grow grow
  follower := expects.follower

theorem reown (expects : Expects c ss jump owed view client queue ps)
    (less : ∀ id, promised id = owed id ∨ promised id = none) :
    Expects c ss jump promised view client queue ps where
  carries := expects.carries
  underway := expects.underway
  strands := fun id => by
    rcases less id with same | none
    · rw [same]
      exact expects.strands id
    · rw [none]
      exact (expects.strands id).disown
  follower := expects.follower

theorem nothing (c : Catalog) (ss : Stories) (jump : Nat) :
    Expects c ss jump (fun _ => none) .new none [] [] where
  carries := .nil
  underway := rfl
  strands := fun id => .unused ss jump id
  follower := nofun

theorem attach (expects : Expects c ss jump owed view none queue ps) :
    Expects c ss jump owed view (some (.new c .default)) queue ps where
  carries := expects.carries
  underway := expects.underway
  strands := expects.strands
  follower := fun f same => by
    cases same
    exact ⟨rfl, rfl⟩

theorem notice (expects : Expects c ss jump owed view client queue ps)
    (joins : Link.Joins faults bytes queue longer) (carried : Carries c ss bytes (id, none)) :
    ∃ after, Expects c ss jump owed view client longer after := by
  obtain ⟨after, joined, carries⟩ := joins_of_carries joins expects.carries carried
  refine ⟨after, carries, ?_, fun other => ?_, expects.follower⟩
  · rw [joined.shown_eq, expects.underway]
    simp [shown?]
  · rw [joined.strand_eq (.inr rfl)]
    exact expects.strands other

/-- A message that tells something of an object joins the queue. -/
theorem join (expects : Expects c ss faults.jump owed view client queue ps)
    (joins : Link.Joins faults bytes queue longer) (carried : Carries c ss bytes (id, some m))
    (underway : seen.underway = view.underway ++ (shown? (id, some m)).toList ++
      if faults.duplicates then (shown? (id, some m)).toList else [])
    (sources : seen.source = view.source)
    (others : ∀ other, other ≠ id →
      promised other = owed other ∧ seen.accounts other = view.accounts other)
    (here : ∀ front passed copies, strand id ps = front ++ passed →
      (∀ q ∈ passed, q.isChange = true) →
      (passed ≠ [] → m.isChange = true ∧ faults.jump ≠ 0) → (copies = [] ∨ copies = [m]) →
      Strand ss faults.jump id (promised id) (seen.accounts id) (view.source id)
        (replicaIn client id) (front ++ m :: passed ++ copies)) :
    ∃ after, Expects c ss faults.jump promised seen client longer after := by
  obtain ⟨after, joined, carries⟩ := joins_of_carries joins expects.carries carried
  refine ⟨after, carries, ?_, fun other => ?_, expects.follower⟩
  · rw [joined.shown_eq, underway, expects.underway]
  · rw [sources]
    by_cases same : other = id
    · subst same
      obtain ⟨front, passed, copies, before, now, changes, kept, copied⟩ := joined.strand_join
      rw [now]
      exact here front passed copies before changes kept copied
    · obtain ⟨promise, account⟩ := others other same
      rw [promise, account, joined.strand_eq (.inl (Ne.symm same))]
      exact expects.strands other

theorem snapshot {h : Handle} {seq : Seq} {o : SharedObject} {body : Octets}
    (expects : Expects c ss faults.jump owed view client queue ps)
    (joins : Link.Joins faults (Message.snapshot o.id seq body).wire queue longer)
    (tells : ss.Tells h seq.toNat o) (written : o.snapshot c = .ok body)
    (here : promised o.id = some (h, seq.toNat))
    (others : ∀ other, other ≠ o.id → promised other = owed other) :
    ∃ after, Expects c ss faults.jump promised (view.snapshot o.id h faults.duplicates) client
      longer after := by
  refine expects.join joins (.whole tells written) ?_ rfl (fun other different => ?_) ?_
  · simp only [View.snapshot, shown?]
    split <;> simp
  · exact ⟨others other different, by simp [View.snapshot, different]⟩
  · intro front passed copies before _ kept copied
    have none : passed = [] := by
      by_contra some
      cases (kept some).1
    subst none
    rw [List.append_nil] at before
    have strand := (expects.strands o.id).joinWhole h seq copied
    rw [before] at strand
    rw [here]
    simpa [View.snapshot] using strand

theorem event {h : Handle} {seq : Seq} {last : Nat} {event : Event} {body : Octets}
    (expects : Expects c ss faults.jump owed view client queue ps)
    (joins : Link.Joins faults (Message.event seq body).wire queue longer)
    (reports : ss.Reports h seq.toNat event) (encoded : event.encode c = .ok body)
    (next : seq.toNat = last + 1) (before : owed event.object = some (h, last))
    (here : promised event.object = some (h, last + 1))
    (others : ∀ other, other ≠ event.object → promised other = owed other) :
    ∃ after, Expects c ss faults.jump promised (view.event event.object false) client longer
      after := by
  refine expects.join joins (.change reports encoded) ?_ rfl (fun other different => ?_) ?_
  · simp [View.event, shown?]
  · exact ⟨others other different, by simp [View.event, different]⟩
  · intro front passed copies split changes kept copied
    have strand := expects.strands event.object
    rw [before, split] at strand
    rw [next] at copied ⊢
    have joined := strand.joinChange changes (fun some => (kept some).2) copied
    rw [here]
    simpa [View.event] using joined

theorem miss {h : Handle} {last : Nat}
    (expects : Expects c ss jump owed view client queue ps) (before : owed id = some (h, last))
    (here : promised id = some (h, last + 1))
    (others : ∀ other, other ≠ id → promised other = owed other) :
    Expects c ss jump promised (view.event id true) client queue ps where
  carries := expects.carries
  underway := expects.underway
  strands := fun other => by
    by_cases same : other = id
    · subst same
      have strand := expects.strands other
      rw [before] at strand
      rw [here]
      simpa [View.event] using strand.missChange
    · rw [others other same]
      simpa [View.event, same] using expects.strands other
  follower := expects.follower

theorem gone (expects : Expects c ss faults.jump owed view client queue ps)
    (joins : Link.Joins faults (Message.removed id).wire queue longer)
    (here : promised id = none) (others : ∀ other, other ≠ id → promised other = owed other) :
    ∃ after, Expects c ss faults.jump promised view client longer after := by
  refine expects.join joins (.gone id) ?_ rfl (fun other different => ⟨others other different, rfl⟩)
    ?_
  · simp [shown?]
  · intro front passed copies before _ kept copied
    have none : passed = [] := by
      by_contra some
      cases (kept some).1
    subst none
    rw [List.append_nil] at before
    have strand := (expects.strands id).joinGone copied
    rw [before] at strand
    rw [here]
    simpa using strand

end SharedObjects.Expects
