import Mathlib.Algebra.GroupWithZero.Nat
import SharedObjects.Proofs.Follower
/-!
Events arriving in any order. A replica has applied the first events of a stream, and those that
came too early wait in their places. What one message does depends on which events those are, but
after all events have arrived, however often each of them, nothing tells in which order they came.
-/
set_option autoImplicit false

namespace SharedObjects

/-- Items with the positions that follow each other after `last`. -/
def numbered {α : Type} (last : Seq) : List α → List (Seq × α)
  | [] => []
  | a :: rest => (last.next, a) :: numbered last.next rest

def published (last : Seq) (bodies : List Octets) : List Message :=
  (numbered last bodies).map fun p => .event p.1 p.2

namespace Update

def count : Update → Nat
  | applied _ count _ => count
  | _ => 0

def rejected : Update → List (Seq × Fault)
  | applied _ _ rejected => rejected
  | _ => []

end Update

section Numbering

variable {α β : Type} {last : Seq}

theorem length_numbered (last : Seq) (as : List α) : (numbered last as).length = as.length := by
  induction as generalizing last with
  | nil => rfl
  | cons a rest ih => simp [numbered, ih]

theorem toNat_of_numbered {as : List α} (room : last.toNat + as.length < UInt64.size) {i : Nat}
    {item : Seq × α} (at_ : (numbered last as)[i]? = some item) :
    item.1.toNat = last.toNat + 1 + i := by
  induction as generalizing last i with
  | nil => simp [numbered] at at_
  | cons a rest ih =>
    rw [List.length_cons] at room
    have next : last.next.toNat = last.toNat + 1 := Seq.toNat_next (by omega)
    cases i with
    | zero =>
      obtain rfl : (last.next, a) = item := by simpa [numbered] using at_
      exact next
    | succ i =>
      have at_ : (numbered last.next rest)[i]? = some item := by simpa [numbered] using at_
      have later := ih (by omega) at_
      omega

theorem forall₂_numbered (last : Seq) {R : α → β → Prop} {as : List α} {bs : List β}
    (related : List.Forall₂ R as bs) :
    List.Forall₂ (fun p q => p.1 = q.1 ∧ R p.2 q.2) (numbered last as) (numbered last bs) := by
  induction related generalizing last with
  | nil => exact .nil
  | cons here _ ih => exact .cons ⟨rfl, here⟩ (ih _)

end Numbering

namespace Sequencer

variable {α : Type} {s after : Sequencer α} {start : Nat} {items batch : List α} {n i : Nat}
  {seq : Seq} {item : α} {arrival : Arrival α}

/-- The first `n` items of a stream have been released, and what waits are items in their places. -/
structure Stands (s : Sequencer α) (start : Nat) (items : List α) (n : Nat) : Prop where
  last_eq : s.last.toNat = start + n
  waits : ∀ k item, s.pending.get? k = some item →
    ∃ i, k.toNat = start + 1 + i ∧ items[i]? = some item

theorem Stands.waits_of_taken (stands : s.Stands start items n) (place : seq.toNat = start + 1 + i)
    (here : items[i]? = some item) (taken : Taken s seq item (.ok (arrival, after))) :
    ∀ k other, after.pending.get? k = some other →
      ∃ i, k.toNat = start + 1 + i ∧ items[i]? = some other := by
  intro k other waits
  rcases taken.mem_pending waits with old | ⟨rfl, rfl⟩
  · exact stands.waits k other old
  · exact ⟨i, place, here⟩

theorem Stands.batch_eq (stands : s.Stands start items n) (place : seq.toNat = start + 1 + i)
    (here : items[i]? = some item)
    (taken : Taken s seq item (.ok (.ready batch, after))) :
    batch = (items.drop n).take batch.length ∧ after.last.toNat = start + n + batch.length := by
  have last_eq := stands.last_eq
  cases taken with
  | @ready released final rest next spec =>
    obtain rfl : i = n := by omega
    have reached := spec.final_eq
    refine ⟨?_, by simp only [List.length_cons]; omega⟩
    apply List.ext_getElem?
    intro j
    rw [List.getElem?_take, List.getElem?_drop]
    split
    case isFalse beyond => exact List.getElem?_eq_none (by omega)
    case isTrue within =>
      cases j with
      | zero => simpa using here.symm
      | succ j =>
        have short : j < released.length := by simpa using within
        have there : released[j]? = some released[j] := List.getElem?_eq_getElem short
        obtain ⟨k, at_, waited⟩ := spec.item j _ there
        obtain ⟨i', place', item'⟩ := stands.waits k _ waited
        obtain rfl : i' = i + (j + 1) := by omega
        rw [List.getElem?_cons_succ, there, item']

theorem Stands.take (stands : s.Stands start items n) (place : seq.toNat = start + 1 + i)
    (here : items[i]? = some item) (taken : Taken s seq item (.ok (arrival, after))) :
    (arrival = .duplicate ∨ arrival = .buffered) ∧ after.Stands start items n ∨
    ∃ m, arrival = .ready ((items.drop n).take m) ∧ after.Stands start items (n + m) := by
  have waits := stands.waits_of_taken place here taken
  cases arrival with
  | duplicate =>
    cases taken
    exact .inl ⟨.inl rfl, stands⟩
  | buffered =>
    cases taken
    exact .inl ⟨.inr rfl, stands.last_eq, waits⟩
  | ready batch =>
    obtain ⟨same, last_eq⟩ := stands.batch_eq place here taken
    exact .inr ⟨batch.length, by rw [← same], by omega, waits⟩

end Sequencer

namespace Follower

/-- Handles messages in turn, whether they fail or not. -/
def handleAll : List Message → Follower → List (Except Fault Update) × Follower
  | [], f => ([], f)
  | m :: rest, f =>
    let (result, f) := (handle m).outcome f
    let (results, f) := handleAll rest f
    (result :: results, f)

variable {f : Follower} {id : ObjectId} {o : SharedObject} {items : List (Seq × Event)}

def caughtUp (f : Follower) (id : ObjectId) (o : SharedObject) (events : List (Seq × Event))
    (s : Sequencer (Seq × Event)) : Follower :=
  { f with
    replicas := f.replicas.put id ⟨(o.replay events).object, s⟩
    heard := f.heard ++ (o.replay events).notices }

theorem get?_caughtUp (f : Follower) (id : ObjectId) (o : SharedObject)
    (events : List (Seq × Event)) (s : Sequencer (Seq × Event)) :
    (f.caughtUp id o events s).replicas.get? id = some ⟨(o.replay events).object, s⟩ :=
  Entries.get?_put_self _ _ _

def Brings (c : Catalog) (id : ObjectId) (items : List (Seq × Event)) (m : Message) : Prop :=
  ∃ (i : Nat) (seq : Seq) (body : Octets) (event : Event), m = .event seq body ∧
    Event.decode c body = .ok event ∧ event.object = id ∧ items[i]? = some (seq, event)

def place : Message → Nat
  | .event seq _ => seq.toNat
  | _ => 0

theorem settle_again (f : Follower) (id : ObjectId) (o : SharedObject)
    (events : List (Seq × Event)) {s after : Sequencer (Seq × Event)}
    {arrival : Arrival (Seq × Event)} (accepted : arrival = .duplicate ∧ after = s ∨
      arrival = .buffered) :
    ∃ update, settle id ⟨(o.replay events).object, s⟩ after arrival (f.caughtUp id o events s) =
        .ok update (f.caughtUp id o events after) ∧
      update.count = 0 ∧ update.rejected = [] := by
  rcases accepted with ⟨rfl, rfl⟩ | rfl
  · exact ⟨_, rfl, rfl, rfl⟩
  · refine ⟨.buffered id, ?_, rfl, rfl⟩
    simp only [settle, caughtUp, putReplica]
    rw [Attempt.bind_ok (Attempt.modify_run _ _)]
    simp only [Entries.put_put]
    rfl

theorem settle_batch (f : Follower) (id : ObjectId) (o : SharedObject)
    (events batch : List (Seq × Event)) (s after : Sequencer (Seq × Event)) :
    ∃ update, settle id ⟨(o.replay events).object, s⟩ after (.ready batch)
        (f.caughtUp id o events s) = .ok update (f.caughtUp id o (events ++ batch) after) ∧
      update.count = ((o.replay events).object.replay batch).count ∧
      update.rejected = ((o.replay events).object.replay batch).rejected := by
  refine ⟨.applied id _ _, ?_, rfl, rfl⟩
  simp only [settle, caughtUp, putReplica, SharedObject.replay_append]
  rw [Attempt.bind_ok (Attempt.modify_run _ _), Attempt.bind_ok (Attempt.modify_run _ _)]
  simp only [Entries.put_put, List.append_assoc]
  rfl

/-- The replica has applied the first `n` events of a stream, and takes what is still to come. -/
structure Following (f : Follower) (id : ObjectId) (start : Nat) (items : List (Seq × Event))
    (n : Nat) (s : Sequencer (Seq × Event)) (coming : List Nat) : Prop where
  object : s.object = id
  config : s.config = f.config
  stands : s.Stands start items n
  due : s.Due False items.length (start + items.length) coming

namespace Following

variable {start n : Nat} {s : Sequencer (Seq × Event)} {coming : List Nat}

theorem begin {last : Seq} {arriving : List Message}
    (placed : ∀ i item, items[i]? = some item → item.1.toNat = last.toNat + 1 + i)
    (brings : ∀ m ∈ arriving, Brings f.catalog id items m)
    (all : ∀ item ∈ items, ∃ m ∈ arriving, place m = item.1.toNat) :
    f.Following id last.toNat items 0 (.startAfter id last f.config) (arriving.map place) where
  object := rfl
  config := rfl
  stands := ⟨rfl, nofun⟩
  due :=
    { tidy := Sequencer.tidy_startAfter id last f.config
      last_le := Nat.le_add_right _ _
      pending_le := nofun
      ahead := by
        intro n mem
        obtain ⟨m, arrives, rfl⟩ := List.mem_map.mp mem
        obtain ⟨i, seq, body, event, rfl, -, -, at_⟩ := brings m arrives
        have within := (List.getElem?_eq_some_iff.mp at_).1
        have here : seq.toNat = last.toNat + 1 + i := placed i _ at_
        simp only [place]
        omega
      all := by
        intro n le
        by_cases early : n ≤ last.toNat
        · exact .inl (.inl early)
        · have within : n - last.toNat - 1 < items.length := by omega
          have here := placed _ _ (List.getElem?_eq_getElem within)
          obtain ⟨m, mem, same⟩ := all _ (List.getElem_mem within)
          exact .inr (List.mem_map.mpr ⟨m, mem, by omega⟩)
      steady := nofun
      near := Nat.le_refl _ }

theorem done (following : f.Following id start items n s []) :
    n = items.length ∧ s.last.toNat = start + items.length ∧
      s = .startAfter id s.last f.config := by
  obtain ⟨last_eq, empty⟩ := following.due.done
  have stood := following.stands.last_eq
  refine ⟨by omega, last_eq, ?_⟩
  obtain ⟨object, last, pending, config⟩ := s
  obtain rfl : object = id := following.object
  obtain rfl : config = f.config := following.config
  obtain rfl : pending = [] := empty
  rfl

variable (few : items.length ≤ f.config.maxPending + 1)
  (placed : ∀ i item, items[i]? = some item → item.1.toNat = start + 1 + i)
include few placed

theorem step {m : Message} (following : f.Following id start items n s (place m :: coming))
    (brings : Brings f.catalog id items m) (o : SharedObject) :
    ∃ update more after, (handle m).outcome (f.caughtUp id o (items.take n) s) =
        (.ok update, f.caughtUp id o (items.take (n + more)) after) ∧
      f.Following id start items (n + more) after coming ∧
      (o.replay (items.take (n + more))).count = (o.replay (items.take n)).count + update.count ∧
      (o.replay (items.take (n + more))).rejected =
        (o.replay (items.take n)).rejected ++ update.rejected := by
  obtain ⟨i, seq, body, event, rfl, decoded, named, at_⟩ := brings
  obtain ⟨arrival, after, accepted, taken, due⟩ :=
    following.due.accept (.inr (following.config ▸ few)) (seq, event)
  obtain ⟨object, config⟩ := taken.frame
  have there : (f.caughtUp id o (items.take n) s).replicas.get? event.object =
      some ⟨(o.replay (items.take n)).object, s⟩ := named ▸ get?_caughtUp f _ o _ s
  have decoded : Event.decode (f.caughtUp id o (items.take n) s).catalog body = .ok event := decoded
  have handled := takeEvent_eq decoded there accepted
  rw [named] at handled
  rcases following.stands.take (placed i _ at_) at_ taken with ⟨again, stands⟩ | ⟨more, rfl, stands⟩
  · have same : arrival = .duplicate ∧ after = s ∨ arrival = .buffered :=
      again.imp_left fun dropped => ⟨dropped, Sequencer.eq_of_duplicate (dropped ▸ accepted)⟩
    obtain ⟨update, settled, count, rejected⟩ :=
      settle_again f id o (items.take n) same
    refine ⟨update, 0, after, Attempt.outcome_ok (handled.trans settled), ?_, ?_, ?_⟩
    · exact ⟨object.trans following.object, config.trans following.config, stands, due⟩
    · simp [count]
    · simp [rejected]
  · obtain ⟨update, settled, count, rejected⟩ :=
      settle_batch f id o (items.take n) ((items.drop n).take more) s after
    have taken_more : items.take n ++ (items.drop n).take more = items.take (n + more) :=
      List.take_add.symm
    rw [taken_more] at settled
    refine ⟨update, more, after, Attempt.outcome_ok (handled.trans settled), ?_, ?_, ?_⟩
    · exact ⟨object.trans following.object, config.trans following.config, stands, due⟩
    · rw [← taken_more, SharedObject.replay_append, count]
    · rw [← taken_more, SharedObject.replay_append, rejected]

theorem all {arriving : List Message}
    (following : f.Following id start items n s (arriving.map place))
    (brings : ∀ m ∈ arriving, Brings f.catalog id items m) (o : SharedObject) :
    ∃ (updates : List Update) (seq : Seq), seq.toNat = start + items.length ∧
      handleAll arriving (f.caughtUp id o (items.take n) s) =
        (updates.map .ok, f.caughtUp id o items (.startAfter id seq f.config)) ∧
      (o.replay items).count = (o.replay (items.take n)).count + (updates.map Update.count).sum ∧
      (o.replay items).rejected =
        (o.replay (items.take n)).rejected ++ updates.flatMap Update.rejected := by
  induction arriving generalizing n s with
  | nil =>
    obtain ⟨rfl, reached, ended⟩ := following.done
    refine ⟨[], s.last, reached, ?_, ?_, ?_⟩
    · rw [List.take_length, ← ended]
      rfl
    · simp
    · simp
  | cons m rest ih =>
    obtain ⟨update, more, after, first, next, count, rejected⟩ :=
      following.step few placed (brings m (by simp)) o
    obtain ⟨updates, seq, reached, handled, counts, refused⟩ :=
      ih next fun m mem => brings m (by simp [mem])
    refine ⟨update :: updates, seq, reached, ?_, ?_, ?_⟩
    · simp only [handleAll, first, handled, List.map_cons]
    · rw [counts, count, List.map_cons, List.sum_cons, Nat.add_assoc]
    · rw [refused, rejected, List.flatMap_cons, List.append_assoc]

end Following

theorem caughtUp_nil {s : Sequencer (Seq × Event)}
    (held : f.replicas.get? id = some ⟨o, s⟩) : f.caughtUp id o [] s = f := by
  simp [caughtUp, SharedObject.replay, Entries.put_of_get? held]

section Messages

variable {last : Seq} {bodies : List Octets} {m : Message}

theorem forall₂_decoded {c : Catalog}
    (decoded : ∀ body ∈ bodies, ∃ e, Event.decode c body = .ok e ∧ e.object = id) :
    ∃ events, List.Forall₂ (fun body e => Event.decode c body = .ok e ∧ e.object = id)
      bodies events := by
  induction bodies with
  | nil => exact ⟨[], .nil⟩
  | cons body rest ih =>
    obtain ⟨e, here⟩ := decoded body (by simp)
    obtain ⟨events, there⟩ := ih fun other mem => decoded other (by simp [mem])
    exact ⟨e :: events, .cons here there⟩

theorem brings_published {c : Catalog} {events : List Event}
    (decoded : List.Forall₂ (fun body e => Event.decode c body = .ok e ∧ e.object = id)
      bodies events) (mem : m ∈ published last bodies) :
    Brings c id (numbered last events) m := by
  obtain ⟨⟨seq, body⟩, stamped, rfl⟩ := List.mem_map.mp mem
  obtain ⟨i, at_⟩ := List.mem_iff_getElem?.mp stamped
  obtain ⟨within, here⟩ := List.getElem?_eq_some_iff.mp at_
  have related := forall₂_numbered last decoded
  have within' := related.length_eq ▸ within
  obtain ⟨same, decoded, named⟩ := related.get within within'
  rw [List.get_eq_getElem, here] at same decoded
  refine ⟨i, seq, body, (numbered last events)[i].2, rfl, decoded, named, ?_⟩
  exact List.getElem?_eq_some_iff.mpr ⟨within', Prod.ext same.symm rfl⟩

theorem exists_published {c : Catalog} {events : List Event} {item : Seq × Event}
    (decoded : List.Forall₂ (fun body e => Event.decode c body = .ok e ∧ e.object = id)
      bodies events) (mem : item ∈ numbered last events) :
    ∃ m ∈ published last bodies, place m = item.1.toNat := by
  obtain ⟨i, within, rfl⟩ := List.mem_iff_getElem.mp mem
  have related := forall₂_numbered last decoded
  have within' := related.length_eq.symm ▸ within
  have same := (related.get within' within).1
  refine ⟨_, List.mem_map_of_mem (List.getElem_mem within'), ?_⟩
  exact congrArg Seq.toNat same

theorem handleAll_arriving {events : List Event} {arriving : List Message}
    (held : f.replicas.get? id = some ⟨o, .startAfter id last f.config⟩)
    (decoded : List.Forall₂ (fun body e => Event.decode f.catalog body = .ok e ∧ e.object = id)
      bodies events) (few : bodies.length ≤ f.config.maxPending + 1)
    (room : last.toNat + bodies.length < UInt64.size)
    (same : ∀ m, m ∈ arriving ↔ m ∈ published last bodies) :
    ∃ (updates : List Update) (seq : Seq), seq.toNat = last.toNat + bodies.length ∧
      handleAll arriving f =
        (updates.map .ok, f.caughtUp id o (numbered last events) (.startAfter id seq f.config)) ∧
      (updates.map Update.count).sum = (o.replay (numbered last events)).count ∧
      updates.flatMap Update.rejected = (o.replay (numbered last events)).rejected := by
  have size : (numbered last events).length = bodies.length :=
    (length_numbered last events).trans decoded.length_eq.symm
  have placed : ∀ i item, (numbered last events)[i]? = some item →
      item.1.toNat = last.toNat + 1 + i := fun i item at_ =>
    toNat_of_numbered (by rw [← decoded.length_eq]; exact room) at_
  have brings : ∀ m ∈ arriving, Brings f.catalog id (numbered last events) m := fun m mem =>
    brings_published decoded ((same m).mp mem)
  have all : ∀ item ∈ numbered last events, ∃ m ∈ arriving, place m = item.1.toNat := by
    intro item mem
    obtain ⟨m, there, here⟩ := exists_published decoded mem
    exact ⟨m, (same m).mpr there, here⟩
  obtain ⟨updates, seq, reached, handled, counts, refused⟩ :=
    (Following.begin placed brings all).all (size.symm ▸ few) placed brings o
  rw [List.take_zero, caughtUp_nil held] at handled
  refine ⟨updates, seq, size ▸ reached, handled, ?_, ?_⟩
  · simpa [SharedObject.replay] using counts.symm
  · simpa [SharedObject.replay] using refused.symm

end Messages

/-- A replica starts from a snapshot, and its next events arrive in any order and any number of
times, all of them at least once and no more than can wait. None is an error, and in the end the
follower is what it would be had each arrived once in its place: it has the same values and has told
its listeners the same; as many events were applied, and the same were refused. -/
theorem handleAll_eq_published {last : Seq} {bodies : List Octets} {arriving : List Message}
    (held : f.replicas.get? id = some ⟨o, .startAfter id last f.config⟩)
    (decoded : ∀ body ∈ bodies, ∃ e, Event.decode f.catalog body = .ok e ∧ e.object = id)
    (few : bodies.length ≤ f.config.maxPending + 1)
    (room : last.toNat + bodies.length < UInt64.size)
    (same : ∀ m, m ∈ arriving ↔ m ∈ published last bodies) :
    ∃ (updates inTurn : List Update) (after : Follower) (r : Replica),
      handleAll arriving f = (updates.map .ok, after) ∧
      handleAll (published last bodies) f = (inTurn.map .ok, after) ∧
      after.replicas.get? id = some r ∧ r.sequencer.last.toNat = last.toNat + bodies.length ∧
      r.sequencer.pending = [] ∧
      updates.flatMap Update.rejected = inTurn.flatMap Update.rejected ∧
      (updates.map Update.count).sum = (inTurn.map Update.count).sum := by
  obtain ⟨events, decoded⟩ := forall₂_decoded decoded
  obtain ⟨updates, seq, reached, handled, counts, refused⟩ :=
    handleAll_arriving held decoded few room same
  obtain ⟨inTurn, seq', reached', handled', counts', refused'⟩ :=
    handleAll_arriving held decoded few room fun _ => Iff.rfl
  obtain rfl : seq' = seq := Seq.ext (reached'.trans reached.symm)
  exact ⟨updates, inTurn, _, _, handled, handled', get?_caughtUp _ _ _ _ _, reached, rfl,
    refused.trans refused'.symm, counts.trans counts'.symm⟩

/-- A follower that has had a snapshot of an object without fields, and may keep one event waiting;
someone listens to the replica. -/
def ofRoot : Follower :=
  { new .initial ⟨1⟩ with
    replicas := [(⟨1⟩, ⟨⟨⟨1⟩, .live, .root, [], ["ear"]⟩, .startAfter ⟨1⟩ ⟨3⟩ ⟨1⟩⟩)] }

def rootBodies : List Octets :=
  [[0, 0, 0, 1, 0, 0, 6, 0, 1, 97, 0, 0], [0, 0, 0, 1, 0, 0, 1, 0]]

theorem decoded_root : ∀ body ∈ rootBodies, ∃ e,
    Event.decode ofRoot.catalog body = .ok e ∧ e.object = ⟨1⟩ := by
  intro body mem
  simp only [rootBodies, List.mem_cons, List.not_mem_nil, or_false] at mem
  rcases mem with rfl | rfl
  · exact ⟨.message ⟨1⟩ "a" [], rfl, rfl⟩
  · exact ⟨⟨⟨1⟩, 0, .fieldSet .null⟩, rfl, rfl⟩

theorem handleAll_eq_published_root :
    let arriving : List Message := (published ⟨3⟩ rootBodies).reverse ++ published ⟨3⟩ rootBodies
    rootBodies.length ≤ ofRoot.config.maxPending + 1 ∧
    (∀ m, m ∈ arriving ↔ m ∈ published ⟨3⟩ rootBodies) ∧
    ∃ (updates inTurn : List Update) (after : Follower) (r : Replica),
      handleAll arriving ofRoot = (updates.map .ok, after) ∧
      handleAll (published ⟨3⟩ rootBodies) ofRoot = (inTurn.map .ok, after) ∧
      after.replicas.get? ⟨1⟩ = some r ∧ r.sequencer.last.toNat = 5 ∧
      r.sequencer.pending = [] ∧
      updates.flatMap Update.rejected = inTurn.flatMap Update.rejected ∧
      (updates.map Update.count).sum = (inTurn.map Update.count).sum := by
  intro arriving
  have same : ∀ m, m ∈ arriving ↔ m ∈ published ⟨3⟩ rootBodies := by simp [arriving]
  have held : ofRoot.replicas.get? ⟨1⟩ = some ⟨_, .startAfter ⟨1⟩ ⟨3⟩ ofRoot.config⟩ := rfl
  exact ⟨by decide, same, handleAll_eq_published held decoded_root (by decide) (by decide) same⟩

end Follower

end SharedObjects
