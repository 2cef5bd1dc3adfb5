import SharedObjects.Proofs.Cluster.Reception
set_option autoImplicit false

namespace SharedObjects

namespace Follower

def receive : List Octets → Follower → List (Except Fault Update) × Follower
  | [], f => ([], f)
  | bytes :: rest, f =>
    let (result, f) := (handleBytes bytes).outcome f
    let (results, f) := receive rest f
    (result :: results, f)

def updatesOf (results : List (Except Fault Update)) : List Update :=
  results.filterMap Except.toOption

end Follower

open Follower (updatesOf)

theorem Expects.receiveAll {c : Catalog} {ss : Stories} {jump : Nat}
    {owed : ObjectId → Option (Handle × Nat)} {view : View} {f : Follower} {queue : List Octets}
    {ps : List Parcel} (reachable : c.Reachable) (valid : ∀ s ∈ ss, s.Valid c)
    (expects : Expects c ss jump owed view (some f) queue ps) :
    Expects c ss jump owed ((updatesOf (f.receive queue).1).foldl View.observe view)
      (some (f.receive queue).2) [] [] ∧
    ∀ update ∈ updatesOf (f.receive queue).1, Clean update := by
  induction queue generalizing f ps view with
  | nil =>
    have none := expects.carries
    cases none
    exact ⟨expects, nofun⟩
  | cons bytes queue ih =>
    obtain ⟨p, ps, rfl⟩ : ∃ p rest, ps = p :: rest := by
      have some := expects.carries
      cases some
      exact ⟨_, _, rfl⟩
    obtain ⟨result, after, step, later, clean⟩ := expects.receive reachable valid
    obtain ⟨done, cleanLater⟩ := ih later
    have steps : f.receive (bytes :: queue) =
        (result :: (after.receive queue).1, (after.receive queue).2) := by
      simp only [Follower.receive, step]
    rw [steps]
    cases result with
    | error fault => exact ⟨done, cleanLater⟩
    | ok update =>
      refine ⟨done, fun other mem => ?_⟩
      rcases List.mem_cons.mp mem with rfl | mem
      · exact clean _ rfl
      · exact cleanLater other mem

theorem Expects.emptied {c : Catalog} {ss : Stories} {jump : Nat}
    {owed : ObjectId → Option (Handle × Nat)} {view : View} {client : Option Follower}
    (expects : Expects c ss jump owed view client [] []) :
    Expects c ss jump owed { view with accounts := fun id => (view.accounts id).emptied } client
      [] [] where
  carries := .nil
  underway := expects.underway
  strands := fun id => (expects.strands id).emptied
  follower := expects.follower

namespace Cluster

def updatesTo (e : EndpointId) (updates : List (EndpointId × Update)) : List Update :=
  (updates.filter (·.1 = e)).map Prod.snd

theorem mem_updatesTo {e : EndpointId} {update : Update} {updates : List (EndpointId × Update)} :
    update ∈ updatesTo e updates ↔ (e, update) ∈ updates := by
  simp [updatesTo]

theorem updates_record (p : Pumped) (e : EndpointId) (result : Except Fault Update) :
    (p.record e result).updates = p.updates ++ result.toOption.toList.map fun u => (e, u) := by
  cases result <;> simp [Pumped.record, Except.toOption]

theorem deliver_eq (e : EndpointId) (messages : List Octets) (f : Follower) (p : Pumped) :
    (deliver e messages f p).1 = (f.receive messages).2 ∧
      (deliver e messages f p).2.updates =
        p.updates ++ (updatesOf (f.receive messages).1).map fun u => (e, u) := by
  induction messages generalizing f p with
  | nil => exact ⟨rfl, (List.append_nil _).symm⟩
  | cons message rest ih =>
    obtain ⟨after, updates⟩ := ih ((Follower.handleBytes message).outcome f).2
      (p.record e ((Follower.handleBytes message).outcome f).1)
    refine ⟨after, updates.trans ?_⟩
    rw [updates_record]
    cases result : ((Follower.handleBytes message).outcome f).1 <;>
      simp [Follower.receive, result, updatesOf, Except.toOption, List.filterMap_cons]

/-- What a pump makes of clients and their link. -/
structure Pumps (clients : Entries EndpointId Follower) (link : Link) (p : Pumped)
    (after : Entries EndpointId Follower) (drained : Link) (pumped : Pumped) : Prop where
  keys : after.keys = clients.keys
  received : ∀ e, after.get? e = (clients.get? e).map fun f => (f.receive (link.queue e)).2
  faults : drained.faults = link.faults
  refusing : drained.refusing = link.refusing
  queues : ∀ e, drained.queue e = if clients.contains e then [] else link.queue e
  updates : ∀ e, updatesTo e pumped.updates = updatesTo e p.updates ++
    match clients.get? e with
    | some f => updatesOf (f.receive (link.queue e)).1
    | none => []

theorem updatesTo_append (e : EndpointId) (us vs : List (EndpointId × Update)) :
    updatesTo e (us ++ vs) = updatesTo e us ++ updatesTo e vs := by simp [updatesTo]

theorem updatesTo_map (e other : EndpointId) (us : List Update) :
    updatesTo e (us.map fun u => (other, u)) = if other = e then us else [] := by
  split <;> simp [updatesTo, List.filter_map, Function.comp_def, *]

theorem Pumps.cons {clients after : Entries EndpointId Follower} {link drained : Link}
    {p pumped : Pumped} {e : EndpointId} {f : Follower} (missing : clients.get? e = none)
    (pumps : Pumps clients (link.drain e).2 (deliver e (link.queue e) f p).2 after drained
      pumped) :
    Pumps ((e, f) :: clients) link p ((e, (f.receive (link.queue e)).2) :: after) drained
      pumped where
  keys := by
    have keys := pumps.keys
    simp only [Entries.keys] at keys
    simp [Entries.keys, keys]
  received := by
    intro other
    by_cases same : e = other
    · simp [Entries.get?, same]
    · simp only [Entries.get?, same, if_false, pumps.received, Link.queue_drain, Ne.symm same]
  faults := pumps.faults
  refusing := pumps.refusing
  queues := by
    intro other
    rw [pumps.queues, Link.queue_drain]
    by_cases same : e = other
    · subst same
      simp [Entries.contains, Entries.get?, missing]
    · simp [Entries.contains, Entries.get?, same, Ne.symm same]
  updates := by
    intro other
    rw [pumps.updates, (deliver_eq e (link.queue e) f p).2, updatesTo_append, updatesTo_map,
      Link.queue_drain]
    by_cases same : e = other
    · subst same
      simp [Entries.get?, missing]
    · simp [Entries.get?, same, Ne.symm same]

theorem pumpClients_spec {clients : Entries EndpointId Follower} (distinct : clients.Distinct)
    (link : Link) (p : Pumped) :
    ∃ after drained pumped, pumpClients clients link p = (after, drained, pumped) ∧
      Pumps clients link p after drained pumped := by
  induction clients generalizing link p with
  | nil => exact ⟨[], link, p, rfl, rfl, fun _ => rfl, rfl, rfl, fun _ => rfl, by simp⟩
  | cons entry clients ih =>
    obtain ⟨e, f⟩ := entry
    obtain ⟨absent, distinct⟩ := List.nodup_cons.mp distinct
    -- No later client has this endpoint, so none of them finds the drained queue empty.
    have missing : Entries.get? e clients = none := by
      have absent : ¬Entries.contains e clients = true := Entries.mem_keys_iff.not.mp absent
      simpa [Entries.contains] using absent
    have received := (deliver_eq e (link.queue e) f p).1
    obtain ⟨after, drained, pumped, step, pumps⟩ :=
      ih distinct (link.drain e).2 (deliver e (link.queue e) f p).2
    refine ⟨(e, (f.receive (link.queue e)).2) :: after, drained, pumped, ?_, pumps.cons missing⟩
    have drains : (link.drain e).1 = link.queue e := rfl
    simp only [pumpClients, drains, step, received]

end Cluster

end SharedObjects
