import SharedObjects.Proofs.Cluster.Parcels
set_option autoImplicit false

namespace SharedObjects

open Parcel

def replicaIn (client : Option Follower) (id : ObjectId) : Option Replica :=
  client.bind fun f => f.replicas.get? id

/-- What is to be expected at an endpoint where this much is on its way. -/
structure Expects (c : Catalog) (ss : Stories) (jump : Nat)
    (owed : ObjectId → Option (Handle × Nat)) (view : View) (client : Option Follower)
    (queue : List Octets) (ps : List Parcel) : Prop where
  carries : List.Forall₂ (Carries c ss) queue ps
  underway : view.underway = ps.filterMap shown?
  strands : ∀ id, Strand ss jump id (owed id) (view.accounts id) (view.source id)
    (replicaIn client id) (strand id ps)
  follower : ∀ f, client = some f → f.catalog = c ∧ f.config = .default

def View.seeing (v : View) : Except Fault Update → View
  | .ok update => v.observe update
  | .error _ => v

theorem View.observe_of_ne {v : View} {update : Update} (other : ∀ id, update ≠ .materialized id) :
    v.observe update = v := by
  cases update with
  | materialized id => exact absurd rfl (other id)
  | _ => rfl

/-- Replicas that were refused nothing, if any event was applied. -/
def Clean (update : Update) : Prop :=
  ∀ id count rejected, update = .applied id count rejected → rejected = []

abbrev Advances (c : Catalog) (ss : Stories) (jump : Nat) (owed : ObjectId → Option (Handle × Nat))
    (view : View) (f : Follower) (bytes : Octets) (queue : List Octets) (ps : List Parcel) : Prop :=
  ∃ result after, (Follower.handleBytes bytes).outcome f = (result, after) ∧
    Expects c ss jump owed (view.seeing result) (some after) queue ps ∧
    ∀ update, result = .ok update → Clean update

namespace Parcel

variable {id : ObjectId} {m : News} {p : Parcel} {ps : List Parcel}

theorem strand_cons (id : ObjectId) (m : News) (ps : List Parcel) :
    strand id ((id, some m) :: ps) = m :: strand id ps := by simp [strand]

theorem strand_cons_ne (other : p.1 ≠ id) : strand id (p :: ps) = strand id ps := by
  simp [strand, other]

theorem strand_cons_none (id other : ObjectId) (ps : List Parcel) :
    strand id ((other, none) :: ps) = strand id ps := by
  unfold strand
  rw [List.filterMap_cons_none (by simp)]

end Parcel

namespace Expects

variable {c : Catalog} {ss : Stories} {jump : Nat} {owed : ObjectId → Option (Handle × Nat)}
  {view : View} {f : Follower} {bytes : Octets} {queue : List Octets} {p : Parcel}
  {ps : List Parcel}

/-- One message is handled; it changes the replica of the object it is about, and no other. -/
theorem next (expects : Expects c ss jump owed view (some f) (bytes :: queue) (p :: ps))
    {after : Follower} {replica : Option Replica} (touches : f.Touches p.1 replica after)
    {seen : View} (accounts : seen.accounts = view.accounts)
    (underway : seen.underway = ps.filterMap shown?)
    (sources : ∀ other, other ≠ p.1 → seen.source other = view.source other)
    (here : Strand ss jump p.1 (owed p.1) (view.accounts p.1) (seen.source p.1) replica
      (strand p.1 ps)) :
    Expects c ss jump owed seen (some after) queue ps where
  carries := by
    cases expects.carries with
    | cons _ rest => exact rest
  underway := underway
  strands := fun id => by
    rw [accounts]
    by_cases same : id = p.1
    · subst same
      show Strand ss jump _ _ _ _ (after.replicas.get? p.1) _
      rw [touches.there]
      exact here
    · have strand := expects.strands id
      rw [strand_cons_ne (Ne.symm same)] at strand
      show Strand ss jump _ _ _ _ (after.replicas.get? id) _
      rw [touches.others id same, sources id same]
      exact strand
  follower := fun g same => by
    cases same
    obtain ⟨catalog, config⟩ := expects.follower f rfl
    exact ⟨touches.catalog.trans catalog, touches.config.trans config⟩

theorem receive_gone {id : ObjectId}
    (expects : Expects c ss jump owed view (some f) ((Message.removed id).wire :: queue)
      ((id, some .gone) :: ps)) :
    Advances c ss jump owed view f (Message.removed id).wire queue ps := by
  have decoded : Message.decode (Message.removed id).wire = _ := Message.decode_wire trivial trivial
  have handled : (Follower.handleBytes (Message.removed id).wire).outcome f =
      (Follower.handle (.removed id)).outcome f := by
    rw [Attempt.outcome, Follower.handleBytes_eq decoded]
    rfl
  have underway : view.underway = ps.filterMap shown? := expects.underway
  have here := expects.strands id
  rw [strand_cons] at here
  cases there : f.replicas.get? id with
  | none =>
    refine ⟨_, f, handled.trans (Follower.drop_missing there), ?_, by simp⟩
    exact expects.next ⟨rfl, rfl, there, fun _ _ => rfl⟩ rfl underway (fun _ _ => rfl) here.gone
  | some r =>
    obtain ⟨after, step, touches⟩ := Follower.drop_ok there
    refine ⟨_, after, handled.trans step, ?_, ?_⟩
    · exact expects.next touches rfl underway (fun _ _ => rfl) here.gone
    · rintro _ ⟨⟩
      simp [Clean]

theorem receive_notice {id : ObjectId} {reason : String}
    (fits : (Message.subscribeFailed id reason).Fits)
    (expects : Expects c ss jump owed view (some f)
      ((Message.subscribeFailed id reason).wire :: queue) ((id, none) :: ps)) :
    Advances c ss jump owed view f (Message.subscribeFailed id reason).wire queue ps := by
  have decoded : Message.decode (Message.subscribeFailed id reason).wire = _ :=
    Message.decode_wire trivial fits
  have underway : view.underway = ps.filterMap shown? := expects.underway
  have here := expects.strands id
  rw [strand_cons_none] at here
  refine ⟨.ok (.subscribeFailed id reason), f, ?_, ?_, ?_⟩
  · rw [Attempt.outcome, Follower.handleBytes_eq decoded]
    rfl
  · exact expects.next ⟨rfl, rfl, rfl, fun _ _ => rfl⟩ rfl underway (fun _ _ => rfl) here
  · rintro _ ⟨⟩
    simp [Clean]

variable (reachable : c.Reachable) (valid : ∀ s ∈ ss, s.Valid c)
include reachable valid

theorem receive_whole {h : Handle} {seq : Seq} {o : SharedObject} {body : Octets}
    (tells : ss.Tells h seq.toNat o) (written : o.snapshot c = .ok body)
    (expects : Expects c ss jump owed view (some f)
      ((Message.snapshot o.id seq body).wire :: queue) ((o.id, some (.whole h seq.toNat)) :: ps)) :
    Advances c ss jump owed view f (Message.snapshot o.id seq body).wire queue ps := by
  obtain ⟨catalog, config⟩ := expects.follower f rfl
  have full : (Message.snapshot o.id seq body).Full := by
    have known := (SharedObject.known_of_snapshot written).choose_spec
    rw [((SharedObject.snapshot_eq_ok_iff known).mp written).2]
    exact o.wire_ne_nil
  have made := tells.ofSnapshot valid reachable written
  rw [← catalog] at made
  obtain ⟨after, step, touches⟩ := @Follower.materialize_ok f o.id seq body o made
  rw [config] at touches
  have decoded := Message.decode_wire full trivial
  have underway : view.underway = h :: ps.filterMap shown? := by
    simpa [shown?] using expects.underway
  refine ⟨_, after, by rw [Attempt.outcome, Follower.handleBytes_eq decoded]; exact step, ?_, ?_⟩
  · have here := expects.strands o.id
    rw [strand_cons] at here
    have seen : view.seeing (.ok (.materialized o.id)) = { view with
        underway := ps.filterMap shown?
        source := Function.update view.source o.id (some h) } := by
      simp only [View.seeing, View.observe, underway]
    rw [seen]
    refine expects.next touches rfl rfl (fun other different => ?_) ?_
    · simp [different]
    · simpa using here.whole tells rfl
  · rintro _ ⟨⟩
    simp [Clean]

theorem receive_change {h : Handle} {seq : Seq} {event : Event} {body : Octets}
    (reports : ss.Reports h seq.toNat event) (encoded : event.encode c = .ok body)
    (expects : Expects c ss jump owed view (some f) ((Message.event seq body).wire :: queue)
      ((event.object, some (.change h seq.toNat)) :: ps)) :
    Advances c ss jump owed view f (Message.event seq body).wire queue ps := by
  obtain ⟨catalog, config⟩ := expects.follower f rfl
  have full : (Message.event seq body).Full := by
    rw [(Event.encode_eq_ok_iff.mp encoded).2]
    exact Nat.le_of_lt event.eventHeaderSize_lt
  have decoded := Message.decode_wire full trivial
  have found : Event.decode f.catalog body = .ok event := by
    rw [catalog]
    exact Event.decode_encode reachable (reports.wellKeyed valid) encoded
  have underway : view.underway = ps.filterMap shown? := expects.underway
  have here := expects.strands event.object
  rw [strand_cons] at here
  have handled {result : Except Fault Update} {after : Follower}
      (step : (Follower.handle (.event seq body)).outcome f = (result, after)) :
      (Follower.handleBytes (Message.event seq body).wire).outcome f = (result, after) := by
    rw [Attempt.outcome, Follower.handleBytes_eq decoded]
    exact step
  cases there : f.replicas.get? event.object with
  | none =>
    refine ⟨_, f, handled (Follower.takeEvent_missing found there), ?_, by simp⟩
    rw [replicaIn, Option.bind_some, there] at here
    exact expects.next ⟨rfl, rfl, there, fun _ _ => rfl⟩ rfl underway (fun _ _ => rfl) here.skip
  | some r =>
    rw [replicaIn, Option.bind_some, there] at here
    cases accepted : r.sequencer.accept seq (seq, event) with
    | error fault =>
      refine ⟨_, f, handled (Follower.takeEvent_refused found there accepted), ?_, by simp⟩
      exact expects.next (Follower.touches_self there) rfl underway (fun _ _ => rfl)
        (here.refuse accepted)
    | ok taken =>
      obtain ⟨arrival, s⟩ := taken
      obtain ⟨update, after, step, touches, other, applied⟩ :=
        Follower.takeEvent_ok found there accepted
      obtain ⟨strand, kept⟩ := here.take valid reports accepted
      refine ⟨_, after, handled step, ?_, ?_⟩
      · have same : view.seeing (.ok update) = view := View.observe_of_ne other
        rw [same]
        exact expects.next touches rfl underway (fun _ _ => rfl) strand
      · rintro _ ⟨⟩ id count rejected same
        obtain ⟨events, ready, rfl⟩ := applied id count rejected same
        exact kept events ready

theorem receive (expects : Expects c ss jump owed view (some f) (bytes :: queue) (p :: ps)) :
    Advances c ss jump owed view f bytes queue ps := by
  have carries : Carries c ss bytes p := by
    cases expects.carries with
    | cons first _ => exact first
  cases carries with
  | whole tells written => exact expects.receive_whole reachable valid tells written
  | change reports encoded => exact expects.receive_change reachable valid reports encoded
  | gone id => exact expects.receive_gone
  | notice fits => exact expects.receive_notice fits

end Expects

end SharedObjects
