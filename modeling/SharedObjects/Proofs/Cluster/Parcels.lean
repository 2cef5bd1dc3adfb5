import Mathlib.Data.List.Forall2
import SharedObjects.Proofs.Cluster.Strands
import SharedObjects.Proofs.Link
set_option autoImplicit false

namespace SharedObjects

/-- The object that a message is about, and what it tells of it, if anything. -/
abbrev Parcel := ObjectId × Option News

namespace Parcel

variable {c : Catalog} {ss : Stories} {bytes : Octets} {p : Parcel} {id : ObjectId} {m : News}
  {ps after : List Parcel} {faults : LinkFaults}

def isChange (p : Parcel) : Bool := p.2.any News.isChange

def shown? : Parcel → Option Handle
  | (_, some (.whole h _)) => some h
  | _ => none

def strand (id : ObjectId) (ps : List Parcel) : List News :=
  ps.filterMap fun p => if p.1 = id then p.2 else none

/-- What these bytes stand for. -/
inductive Carries (c : Catalog) (ss : Stories) : Octets → Parcel → Prop
  | whole {h : Handle} {seq : Seq} {o : SharedObject} {body : Octets} :
    ss.Tells h seq.toNat o → o.snapshot c = .ok body →
    Carries c ss (Message.snapshot o.id seq body).wire (o.id, some (.whole h seq.toNat))
  | change {h : Handle} {seq : Seq} {event : Event} {body : Octets} :
    ss.Reports h seq.toNat event → event.encode c = .ok body →
    Carries c ss (Message.event seq body).wire (event.object, some (.change h seq.toNat))
  | gone (id : ObjectId) : Carries c ss (Message.removed id).wire (id, some .gone)
  | notice {id : ObjectId} {reason : String} : (Message.subscribeFailed id reason).Fits →
    Carries c ss (Message.subscribeFailed id reason).wire (id, none)

theorem Carries.grow {later : Stories} (carries : Carries c ss bytes p) (grow : ss.Grow later) :
    Carries c later bytes p := by
  cases carries with
  | whole tells written => exact .whole (grow.tells _ _ _ tells) written
  | change reports encoded => exact .change (grow.reports _ _ _ reports) encoded
  | gone id => exact .gone id
  | notice fits => exact .notice fits

theorem Carries.isEvent_eq (carries : Carries c ss bytes p) : Link.isEvent bytes = p.isChange := by
  cases carries <;> rfl

/-- What is on its way, before and after a message joined the queue. -/
inductive Joins (faults : LinkFaults) (p : Parcel) : List Parcel → List Parcel → Prop
  | intro {front passed copies : List Parcel} : (∀ q ∈ passed, q.isChange = true) →
    (passed ≠ [] → p.isChange = true ∧ faults.jump ≠ 0) →
    copies = (if faults.duplicates then [p] else []) →
    Joins faults p (front ++ passed) (front ++ p :: passed ++ copies)

theorem split_carries {front rest : List Octets}
    (carries : List.Forall₂ (Carries c ss) (front ++ rest) ps) :
    ∃ before behind, ps = before ++ behind ∧ List.Forall₂ (Carries c ss) front before ∧
      List.Forall₂ (Carries c ss) rest behind := by
  induction front generalizing ps with
  | nil => exact ⟨[], ps, rfl, .nil, carries⟩
  | cons bytes front ih =>
    cases carries with
    | cons first later =>
      obtain ⟨before, behind, rfl, here, there⟩ := ih later
      exact ⟨_ :: before, behind, rfl, .cons first here, there⟩

theorem changes_of_carries {queue : List Octets} (carries : List.Forall₂ (Carries c ss) queue ps)
    (events : ∀ m ∈ queue, Link.isEvent m = true) : ∀ q ∈ ps, q.isChange = true := by
  induction carries with
  | nil => simp
  | cons first _ ih =>
    intro q mem
    rcases List.mem_cons.mp mem with rfl | mem
    · rw [← first.isEvent_eq]
      exact events _ (by simp)
    · exact ih (fun m mem => events m (by simp [mem])) q mem

theorem joins_of_carries {queue longer : List Octets} (joins : Link.Joins faults bytes queue longer)
    (carries : List.Forall₂ (Carries c ss) queue ps) (carried : Carries c ss bytes p) :
    ∃ after, Joins faults p ps after ∧ List.Forall₂ (Carries c ss) longer after := by
  cases joins with
  | @intro front passed events allowed =>
    obtain ⟨before, behind, rfl, here, there⟩ := split_carries carries
    have changes := changes_of_carries there events
    have kept : behind ≠ [] → p.isChange = true ∧ faults.jump ≠ 0 := by
      rw [← carried.isEvent_eq]
      intro some
      refine allowed fun none => some ?_
      subst none
      cases there
      rfl
    refine ⟨_, .intro changes kept rfl, ?_⟩
    have copies : List.Forall₂ (Carries c ss) (faults.copies bytes)
        (if faults.duplicates then [p] else []) := by
      unfold LinkFaults.copies
      split
      · exact .cons carried .nil
      · exact .nil
    exact List.rel_append (List.rel_append here (.cons carried there)) copies

theorem Joins.strand_eq (joins : Joins faults p ps after) (other : p.1 ≠ id ∨ p.2 = none) :
    strand id after = strand id ps := by
  have unseen : (if p.1 = id then p.2 else none) = none := by
    rcases other with different | none
    · rw [if_neg different]
    · rw [none, ite_self]
  cases joins with
  | intro _ _ copied =>
    subst copied
    unfold strand
    split <;> simp [unseen]

theorem isChange_of_mem_strand (changes : ∀ q ∈ ps, q.isChange = true) :
    ∀ m ∈ strand id ps, m.isChange = true := by
  intro m mem
  obtain ⟨q, there, same⟩ := List.mem_filterMap.mp mem
  split at same
  · have change := changes q there
    rwa [isChange, same] at change
  · cases same

theorem Joins.strand_join (joins : Joins faults (id, some m) ps after) :
    ∃ front passed copies, strand id ps = front ++ passed ∧
      strand id after = front ++ m :: passed ++ copies ∧ (∀ q ∈ passed, q.isChange = true) ∧
      (passed ≠ [] → m.isChange = true ∧ faults.jump ≠ 0) ∧ (copies = [] ∨ copies = [m]) := by
  cases joins with
  | @intro front passed _ changes kept copied =>
    subst copied
    refine ⟨strand id front, strand id passed, if faults.duplicates then [m] else [], ?_, ?_,
      isChange_of_mem_strand changes, fun some => kept ?_, ?_⟩
    · simp [strand]
    · unfold strand
      split <;> simp
    · rintro rfl
      exact some rfl
    · split <;> simp

/-- Only a snapshot adds to the snapshots underway, behind all others. -/
theorem Joins.shown_eq (joins : Joins faults p ps after) :
    after.filterMap shown? = ps.filterMap shown? ++ p.shown?.toList ++
      if faults.duplicates then p.shown?.toList else [] := by
  cases joins with
  | @intro front passed _ changes kept copied =>
    subst copied
    have none : passed.filterMap shown? = [] := by
      rw [List.filterMap_eq_nil_iff]
      intro q mem
      have change := changes q mem
      obtain ⟨_, _ | _ | _ | _⟩ := q <;> simp_all [isChange, News.isChange, shown?]
    cases shown : p.shown? with
    | none => split <;> simp [shown, none]
    | some h => split <;> simp [shown, none]

end Parcel

end SharedObjects
