import SharedObjects.Proofs.Follower.Arrivals
import SharedObjects.Proofs.Follower.Handling
import SharedObjects.Proofs.Wire.Events
/-!
A follower as its history has it. Whatever it has been sent, a replica is there exactly if the last
snapshot or removal that was handled is a snapshot, and it is what the events taken in since then
make of that snapshot: one for each position up to the last applied, and for each the first that was
taken in.
-/
set_option autoImplicit false

namespace SharedObjects

abbrev Handled := Message × Except Fault Update

namespace Handled

/-- A snapshot or a removal of this object was handled. -/
def Resets (id : ObjectId) : Handled → Prop
  | (.snapshot other _ _, .ok _) | (.removed other, .ok _) => other = id
  | _ => False

/-- The event of this object that was taken in at this position, to be applied or to wait. -/
def taken? (c : Catalog) (id : ObjectId) (seq : Seq) : Handled → Option Event
  | (.event place body, .ok (.applied _ _ _)) | (.event place body, .ok (.buffered _)) =>
    match Event.decode c body with
    | .ok e => if place = seq ∧ e.object = id then some e else none
    | .error _ => none
  | _ => none

theorem idle_of_error (c : Catalog) (id : ObjectId) (m : Message) (fault : Fault) :
    ¬Resets id (m, .error fault) ∧ ∀ k, taken? c id k (m, .error fault) = none := by
  cases m <;> exact ⟨nofun, fun _ => rfl⟩

end Handled

def firstTaken? (c : Catalog) (id : ObjectId) (seq : Seq) (since : List Handled) : Option Event :=
  since.findSome? (Handled.taken? c id seq)

/-- The last snapshot or removal of an object that was handled is this snapshot; the rest has been
handled since. -/
def Began (past : List Handled) (id : ObjectId) (seq : Seq) (body : Octets)
    (since : List Handled) : Prop :=
  ∃ before update, past = before ++ (.snapshot id seq body, .ok update) :: since ∧
    ∀ h ∈ since, ¬h.Resets id

namespace SharedObject

def trying (o : SharedObject) (e : Event) : SharedObject :=
  match o.apply e with
  | .ok after => after
  | .error _ => o

/-- What events make of an object that tries them in order. -/
def tryingAll (o : SharedObject) (events : List Event) : SharedObject := events.foldl trying o

theorem object_replay (o : SharedObject) (events : List (Seq × Event)) :
    (o.replay events).object = o.tryingAll (events.map Prod.snd) := by
  induction events generalizing o with
  | nil => rfl
  | cons item rest ih =>
    rw [replay, tryingAll, List.map_cons, List.foldl_cons, ← tryingAll, trying]
    cases o.apply item.2 with
    | ok after => exact ih after
    | error fault => exact ih o

end SharedObject

/-- A replica that started from an object at `seq` is what these events make of it, one for each
position up to the last applied and each the first that was taken in there. -/
structure Replica.Recounts (r : Replica) (c : Catalog) (id : ObjectId) (seq : Seq)
    (since : List Handled) (o : SharedObject) (events : List (Seq × Event)) : Prop where
  places : events.map (fun e => e.1.toNat) = List.range' (seq.toNat + 1) events.length
  reached : r.sequencer.last.toNat = seq.toNat + events.length
  first : ∀ e ∈ events, firstTaken? c id e.1 since = some e.2
  object : r.object = o.tryingAll (events.map Prod.snd)

/-- A follower that holds what its history says. -/
structure Follower.Mirrors (f : Follower) (c : Catalog) (config : SequencerConfig)
    (past : List Handled) : Prop where
  contains_iff : ∀ id, f.contains id = true ↔ ∃ seq body since, Began past id seq body since
  replica : ∀ id seq body since, Began past id seq body since →
    ∃ o events r, SharedObject.ofSnapshot c id body = .ok o ∧ f.replicas.get? id = some r ∧
      r.Recounts c id seq since o events
  waiting_le : ∀ id r, f.replicas.get? id = some r →
    r.sequencer.pending.length ≤ config.maxPending

/-- A follower before and after one message. A fault changes nothing; else the object that the
message names is the only one whose replica may change. Applying moves its last position by the
events applied and refused, and those refused are reported in their order. -/
structure Follower.Advances (f : Follower) (m : Message) (result : Except Fault Update)
    (after : Follower) : Prop where
  unchanged : ∀ fault, result = .error fault → after = f
  others : ∀ id, m.object ≠ .ok id → after.replicas.get? id = f.replicas.get? id
  applied : ∀ id count rejected, result = .ok (.applied id count rejected) →
    ∃ last next, f.lastApplied? id = some last ∧ after.lastApplied? id = some next ∧
      next.toNat = last.toNat + count + rejected.length ∧
      rejected.Pairwise (fun a b => a.1.toNat < b.1.toNat) ∧
      ∀ r ∈ rejected, last.toNat < r.1.toNat ∧ r.1.toNat ≤ next.toNat

namespace SharedObject

theorem count_add_rejected (o : SharedObject) (events : List (Seq × Event)) :
    (o.replay events).count + (o.replay events).rejected.length = events.length := by
  induction events generalizing o with
  | nil => rfl
  | cons item rest ih =>
    obtain ⟨seq, e⟩ := item
    rw [replay]
    cases applied : o.apply e with
    | ok after =>
      have := ih after
      simp only [List.length_cons]
      omega
    | error fault =>
      have := ih o
      simp only [List.length_cons]
      omega

theorem rejected_sublist (o : SharedObject) (events : List (Seq × Event)) :
    ((o.replay events).rejected.map Prod.fst).Sublist (events.map Prod.fst) := by
  induction events generalizing o with
  | nil => exact .slnil
  | cons item rest ih =>
    obtain ⟨seq, e⟩ := item
    rw [replay]
    cases applied : o.apply e with
    | ok after => exact (ih after).cons _
    | error fault => exact (ih o).cons_cons _

end SharedObject

section Histories

variable {c : Catalog} {config : SequencerConfig} {past since : List Handled} {h : Handled}
  {id : ObjectId} {seq : Seq} {body : Octets}

theorem firstTaken?_snoc (k : Seq) : firstTaken? c id k (since ++ [h]) =
    (firstTaken? c id k since).or (h.taken? c id k) := by
  simp [firstTaken?, List.findSome?_append]

theorem began_snoc_iff : Began (past ++ [h]) id seq body since ↔
    (∃ update, h = (.snapshot id seq body, .ok update) ∧ since = []) ∨
    ∃ earlier, since = earlier ++ [h] ∧ ¬h.Resets id ∧ Began past id seq body earlier := by
  constructor
  · rintro ⟨before, update, split, quiet⟩
    rcases snoc_eq_split_iff.mp split with ⟨rfl, -, rfl⟩ | ⟨earlier, rfl, rfl⟩
    · exact .inl ⟨update, rfl, rfl⟩
    · exact .inr ⟨earlier, rfl, quiet h (by simp), before, update, rfl,
        fun other mem => quiet other (by simp [mem])⟩
  · rintro (⟨update, rfl, rfl⟩ | ⟨earlier, rfl, quiet, before, update, rfl, still⟩)
    · exact ⟨past, update, rfl, fun _ mem => absurd mem List.not_mem_nil⟩
    · refine ⟨before, update, by simp, fun other mem => ?_⟩
      rcases List.mem_append.mp mem with old | new
      · exact still other old
      · exact List.mem_singleton.mp new ▸ quiet

theorem Began.unique {seq' : Seq} {body' : Octets} {since' : List Handled}
    (one : Began past id seq body since) (other : Began past id seq' body' since') :
    seq' = seq ∧ body' = body ∧ since' = since := by
  induction past using List.reverseRecOn generalizing since since' with
  | nil =>
    obtain ⟨before, update, split, -⟩ := one
    simp at split
  | append_singleton past h ih =>
    rcases began_snoc_iff.mp one with ⟨update, rfl, rfl⟩ | ⟨earlier, rfl, quiet, one⟩
    · rcases began_snoc_iff.mp other with ⟨update', same, rfl⟩ | ⟨_, _, quiet, _⟩
      · cases same
        exact ⟨rfl, rfl, rfl⟩
      · exact absurd rfl quiet
    · rcases began_snoc_iff.mp other with ⟨update', rfl, _⟩ | ⟨earlier', rfl, -, other⟩
      · exact absurd rfl quiet
      · obtain ⟨rfl, rfl, rfl⟩ := ih one other
        exact ⟨rfl, rfl, rfl⟩

end Histories

namespace Sequencer

variable {β : Type} {seq : Seq} {s after : Sequencer (Seq × β)} {b : β} {batch : List (Seq × β)}
  (named : ∀ k other, s.pending.get? k = some other → other.1 = k)
  (taken : Taken s seq (seq, b) (.ok (.ready batch, after)))
include named taken

theorem Taken.places : batch.map (fun e => e.1.toNat) =
      List.range' (s.last.toNat + 1) batch.length ∧
    after.last.toNat = s.last.toNat + batch.length := by
  cases taken with
  | @ready rest final _ place released =>
    have reached := released.final_eq
    refine ⟨?_, by simp only [List.length_cons]; omega⟩
    rw [List.map_cons, List.length_cons, List.range'_succ, place]
    congr 1
    refine List.ext_getElem (by simp) fun i within _ => ?_
    have short : i < rest.length := by simpa using within
    obtain ⟨k, behind, waits⟩ := released.item i rest[i] (List.getElem?_eq_getElem short)
    have here : rest[i].1 = k := named k _ waits
    simp only [List.getElem_map, List.getElem_range', here]
    omega

theorem Taken.mem_batch {other : Seq × β} (mem : other ∈ batch) :
    other = (seq, b) ∨ s.pending.get? other.1 = some other := by
  cases taken with
  | ready place released =>
    rcases List.mem_cons.mp mem with rfl | mem
    · exact .inl rfl
    · obtain ⟨i, at_⟩ := List.mem_iff_getElem?.mp mem
      obtain ⟨k, -, waits⟩ := released.item i other at_
      exact .inr ((named k other waits).symm ▸ waits)

end Sequencer

/-- A replica as it was made and tended since: each event that was taken in has been applied or
waits at its position. -/
structure Replica.Tended (r : Replica) (c : Catalog) (config : SequencerConfig) (id : ObjectId)
    (seq : Seq) (since : List Handled) (o : SharedObject) (events : List (Seq × Event)) : Prop
    extends r.Recounts c id seq since o events where
  tidy : r.sequencer.Tidy
  config_eq : r.sequencer.config = config
  room : r.sequencer.pending.length ≤ config.maxPending
  waits : ∀ k e, r.sequencer.pending.get? k = some e →
    e.1 = k ∧ firstTaken? c id k since = some e.2
  known : ∀ k e, firstTaken? c id k since = some e → r.sequencer.Knows k.toNat

namespace Replica.Tended

variable {c : Catalog} {config : SequencerConfig} {since : List Handled} {h : Handled}
  {id : ObjectId} {seq : Seq} {o : SharedObject} {events : List (Seq × Event)} {r : Replica}

theorem start (c : Catalog) (config : SequencerConfig) (id : ObjectId) (seq : Seq)
    (o : SharedObject) : Tended ⟨o, .startAfter id seq config⟩ c config id seq [] o [] where
  places := rfl
  reached := rfl
  first := nofun
  object := rfl
  tidy := Sequencer.tidy_startAfter id seq config
  config_eq := rfl
  room := Nat.zero_le _
  waits := nofun
  known := nofun

theorem named (tended : r.Tended c config id seq since o events) (k : Seq) (e : Seq × Event)
    (waits : r.sequencer.pending.get? k = some e) : e.1 = k := (tended.waits k e waits).1

theorem idle (tended : r.Tended c config id seq since o events)
    (quiet : ∀ k, h.taken? c id k = none) :
    r.Tended c config id seq (since ++ [h]) o events := by
  have still (k : Seq) : firstTaken? c id k (since ++ [h]) = firstTaken? c id k since := by
    rw [firstTaken?_snoc, quiet, Option.or_none]
  exact
    { tended with
      first := fun e mem => (still e.1).trans (tended.first e mem)
      waits := fun k e waits => (tended.waits k e waits).imp_right (still k).trans
      known := fun k e taken => tended.known k e ((still k).symm.trans taken) }

section Taking

variable {place : Seq} {event : Event} {arrival : Arrival (Seq × Event)}
  {s : Sequencer (Seq × Event)} (tended : r.Tended c config id seq since o events)
  (accepted : r.sequencer.accept place (place, event) = .ok (arrival, s))
  (takes : ∀ k, h.taken? c id k = if place = k then some event else none)
include tended accepted takes

theorem first_snoc (new : arrival ≠ .duplicate) :
    (∀ k e, firstTaken? c id k since = some e → firstTaken? c id k (since ++ [h]) = some e) ∧
    firstTaken? c id place (since ++ [h]) = some event ∧
    ∀ k e, firstTaken? c id k (since ++ [h]) = some e →
      firstTaken? c id k since = some e ∨ k = place := by
  have taken := accepted ▸ Sequencer.accept_spec tended.tidy place (place, event)
  have fresh : firstTaken? c id place since = none := by
    cases earlier : firstTaken? c id place since with
    | none => rfl
    | some e => exact absurd (tended.known place e earlier) (taken.new tended.tidy new)
  refine ⟨fun k e there => ?_, ?_, fun k e there => ?_⟩
  · rw [firstTaken?_snoc, there, Option.some_or]
  · rw [firstTaken?_snoc, fresh, Option.none_or, takes, if_pos rfl]
  · rw [firstTaken?_snoc, takes] at there
    by_cases here : place = k
    · exact .inr here.symm
    · rw [if_neg here, Option.or_none] at there
      exact .inl there

theorem take (new : arrival ≠ .duplicate) {after : Replica} (sequencer : after.sequencer = s)
    {more : List (Seq × Event)} (object : after.object = (r.object.replay more).object)
    (places : more.map (fun e => e.1.toNat) =
      List.range' (r.sequencer.last.toNat + 1) more.length)
    (reached : s.last.toNat = r.sequencer.last.toNat + more.length)
    (mem : ∀ e ∈ more, e = (place, event) ∨ r.sequencer.pending.get? e.1 = some e) :
    after.Tended c config id seq (since ++ [h]) o (events ++ more) := by
  have taken := accepted ▸ Sequencer.accept_spec tended.tidy place (place, event)
  obtain ⟨old, here, back⟩ := tended.first_snoc accepted takes new
  subst sequencer
  constructor
  · constructor
    · rw [List.map_append, tended.places, places, tended.reached, List.length_append,
        List.range'_append_1.symm, Nat.add_right_comm]
    · rw [reached, tended.reached, List.length_append, Nat.add_assoc]
    · intro e mem_events
      rcases List.mem_append.mp mem_events with applied | ready
      · exact old _ _ (tended.first e applied)
      · rcases mem e ready with rfl | waited
        · exact here
        · exact old _ _ (tended.waits _ _ waited).2
    · rw [object, tended.object, SharedObject.object_replay, List.map_append,
        SharedObject.tryingAll, SharedObject.tryingAll, SharedObject.tryingAll,
        List.foldl_append]
  · exact taken.tidy tended.tidy
  · exact taken.frame.2.trans tended.config_eq
  · have room := tended.room
    rw [← tended.config_eq] at room ⊢
    exact Sequencer.room_of_accept room accepted
  · intro k e waits
    rcases taken.mem_pending waits with before | ⟨rfl, rfl⟩
    · exact (tended.waits k e before).imp_right (old k e.2)
    · exact ⟨rfl, here⟩
  · intro k e there
    rcases back k e there with before | rfl
    · exact taken.knows (.inl (tended.known k e before))
    · exact taken.knows (.inr rfl)

end Taking

section Arriving

variable {place : Seq} {event : Event} {s : Sequencer (Seq × Event)}
  (tended : r.Tended c config id seq since o events)
  (takes : ∀ k, h.taken? c id k = if place = k then some event else none)
include tended takes

theorem buffer (accepted : r.sequencer.accept place (place, event) = .ok (.buffered, s)) :
    Tended { r with sequencer := s } c config id seq (since ++ [h]) o events := by
  have taken := accepted ▸ Sequencer.accept_spec tended.tidy place (place, event)
  have still : s.last = r.sequencer.last := by
    cases taken
    rfl
  have after : Tended { r with sequencer := s } c config id seq (since ++ [h]) o (events ++ []) :=
    tended.take accepted takes nofun rfl rfl rfl (congrArg Seq.toNat still) nofun
  rwa [List.append_nil] at after

theorem release {batch : List (Seq × Event)}
    (accepted : r.sequencer.accept place (place, event) = .ok (.ready batch, s)) :
    Tended ⟨(r.object.replay batch).object, s⟩ c config id seq (since ++ [h]) o
      (events ++ batch) := by
  have taken := accepted ▸ Sequencer.accept_spec tended.tidy place (place, event)
  obtain ⟨places, reached⟩ := taken.places tended.named
  exact tended.take accepted takes nofun rfl rfl places reached fun e =>
    taken.mem_batch tended.named

end Arriving

end Replica.Tended

/-- What the history says of one object's replica. -/
inductive Standing (c : Catalog) (config : SequencerConfig) (past : List Handled) (id : ObjectId) :
    Option Replica → Prop
  | away (never : ∀ seq body since, ¬Began past id seq body since) : Standing c config past id none
  | there {seq : Seq} {body : Octets} {since : List Handled} {o : SharedObject}
    {events : List (Seq × Event)} {r : Replica} (began : Began past id seq body since)
    (made : SharedObject.ofSnapshot c id body = .ok o)
    (tended : r.Tended c config id seq since o events) : Standing c config past id (some r)

namespace Standing

variable {c : Catalog} {config : SequencerConfig} {past : List Handled} {id : ObjectId}
  {entry : Option Replica} {h : Handled}

theorem idle (standing : Standing c config past id entry) (kept : ¬h.Resets id)
    (quiet : ∀ k, h.taken? c id k = none) : Standing c config (past ++ [h]) id entry := by
  cases standing with
  | away never =>
    refine .away fun seq body since began => ?_
    rcases began_snoc_iff.mp began with ⟨update, rfl, -⟩ | ⟨earlier, -, -, began⟩
    · exact kept rfl
    · exact never _ _ _ began
  | there began made tended =>
    exact .there (began_snoc_iff.mpr (.inr ⟨_, rfl, kept, began⟩)) made (tended.idle quiet)

end Standing

namespace Follower

variable {f after : Follower} {m : Message} {result : Except Fault Update} {id : ObjectId}
  {past : List Handled}

theorem object_of_decode {seq : Seq} {body : Octets} {event : Event}
    (decoded : Event.decode f.catalog body = .ok event) :
    (Message.event seq body).object = .ok event.object := Event.peekObject_of_decode decoded

theorem Handles.others (handles : f.Handles m result after) (about : m.object ≠ .ok id) :
    after.replicas.get? id = f.replicas.get? id := by
  cases handles with
  | refused | told | duplicate => rfl
  | materialized _ touches | dropped touches =>
    exact touches.others id fun same => about (same ▸ rfl)
  | buffered decoded _ _ touches | applied decoded _ _ touches =>
    exact touches.others id fun same => about (same ▸ object_of_decode decoded)

theorem Handles.foreign (handles : f.Handles m result after) (about : m.object ≠ .ok id) :
    ¬Handled.Resets id (m, result) ∧ ∀ k, Handled.taken? f.catalog id k (m, result) = none := by
  cases handles with
  | refused m fault => exact Handled.idle_of_error f.catalog id m fault
  | told | duplicate => exact ⟨nofun, fun _ => rfl⟩
  | materialized | dropped => exact ⟨fun same => about (congrArg _ same), fun _ => rfl⟩
  | buffered decoded | applied decoded =>
    refine ⟨nofun, fun k => ?_⟩
    have different : ¬_ = id := fun same =>
      about ((object_of_decode decoded).trans (congrArg _ same))
    simp [Handled.taken?, decoded, different]

theorem Handles.standing (handles : f.Handles m result after)
    (standing : Standing f.catalog f.config past id (f.replicas.get? id)) :
    Standing f.catalog f.config (past ++ [(m, result)]) id (after.replicas.get? id) := by
  by_cases about : m.object = .ok id
  case neg =>
    obtain ⟨kept, quiet⟩ := handles.foreign about
    rw [handles.others about]
    exact standing.idle kept quiet
  cases handles with
  | refused m fault =>
    obtain ⟨kept, quiet⟩ := Handled.idle_of_error f.catalog id m fault
    exact standing.idle kept quiet
  | told | duplicate => exact standing.idle nofun fun _ => rfl
  | @materialized other seq body o _ made touches =>
    obtain rfl : other = id := Except.ok.inj about
    rw [touches.there]
    exact .there (began_snoc_iff.mpr (.inl ⟨_, rfl, rfl⟩)) made (.start _ _ _ _ _)
  | @dropped other _ touches =>
    obtain rfl : other = id := Except.ok.inj about
    rw [touches.there]
    refine .away fun seq body since began => ?_
    rcases began_snoc_iff.mp began with ⟨update, same, -⟩ | ⟨_, -, kept, -⟩
    · cases same
    · exact kept rfl
  | @buffered place body event r s _ decoded there accepted touches =>
    obtain rfl : event.object = id := Except.ok.inj ((object_of_decode decoded).symm.trans about)
    rw [there] at standing
    rw [touches.there]
    cases standing with
    | there began made tended =>
      refine .there (began_snoc_iff.mpr (.inr ⟨_, rfl, nofun, began⟩)) made
        (tended.buffer (fun k => ?_) accepted)
      simp [Handled.taken?, decoded]
  | @applied place body event r batch s _ decoded there accepted touches =>
    obtain rfl : event.object = id := Except.ok.inj ((object_of_decode decoded).symm.trans about)
    rw [there] at standing
    rw [touches.there]
    cases standing with
    | there began made tended =>
      refine .there (began_snoc_iff.mpr (.inr ⟨_, rfl, nofun, began⟩)) made
        (tended.release (fun k => ?_) accepted)
      simp [Handled.taken?, decoded]

def Accounted (c : Catalog) (config : SequencerConfig) (past : List Handled) (f : Follower) :
    Prop :=
  f.catalog = c ∧ f.config = config ∧ ∀ id, Standing c config past id (f.replicas.get? id)

section Accounts

variable {c : Catalog} {config : SequencerConfig}

theorem accounted_new (c : Catalog) (config : SequencerConfig) :
    Accounted c config [] (.new c config) := by
  refine ⟨rfl, rfl, fun id => .away fun seq body since ⟨before, update, split, _⟩ => ?_⟩
  simp at split

theorem Accounted.next (accounted : Accounted c config past f)
    (handles : f.Handles m result after) : Accounted c config (past ++ [(m, result)]) after := by
  obtain ⟨rfl, rfl, accounts⟩ := accounted
  exact ⟨handles.frame.1, handles.frame.2, fun id => handles.standing (accounts id)⟩

def handled (ms : List Message) (f : Follower) : List Handled := ms.zip (handleAll ms f).1

theorem Accounted.all (accounted : Accounted c config past f) (ms : List Message) :
    Accounted c config (past ++ handled ms f) (handleAll ms f).2 := by
  induction ms generalizing past f with
  | nil => simpa [handled, handleAll] using accounted
  | cons m rest ih =>
    have later := ih (accounted.next (handles f m))
    simpa [handled, handleAll] using later

theorem Accounted.mirrors (accounted : Accounted c config past f) :
    f.Mirrors c config past where
  contains_iff id := by
    have standing := accounted.2.2 id
    rw [contains, Entries.contains]
    generalize f.replicas.get? id = entry at standing
    cases standing with
    | away never => simp [never]
    | there began => simpa using ⟨_, _, _, began⟩
  replica id seq body since began := by
    have standing := accounted.2.2 id
    cases entry : f.replicas.get? id with
    | none =>
      rw [entry] at standing
      cases standing with
      | away never => exact absurd began (never _ _ _)
    | some r =>
      rw [entry] at standing
      cases standing with
      | there began' made tended =>
        obtain ⟨rfl, rfl, rfl⟩ := began'.unique began
        exact ⟨_, _, r, made, rfl, tended.toRecounts⟩
  waiting_le id r there := by
    have standing := accounted.2.2 id
    rw [there] at standing
    cases standing with
    | there began made tended => exact tended.room

theorem Accounted.advances (accounted : Accounted c config past f)
    (handles : f.Handles m result after) : f.Advances m result after where
  unchanged fault failed := by
    cases handles with
    | refused => rfl
    | _ => cases failed
  others id := handles.others
  applied id count rejected done := by
    cases handles with
    | @applied place body event r batch s _ decoded there accepted touches =>
      cases done
      have standing := accounted.2.2 event.object
      rw [there] at standing
      cases standing with
      | there began made tended =>
        have taken := accepted ▸ Sequencer.accept_spec tended.tidy place (place, event)
        obtain ⟨places, reached⟩ := taken.places tended.named
        have all := r.object.count_add_rejected batch
        have some_of := (r.object.rejected_sublist batch).map Seq.toNat
        rw [List.map_map, List.map_map] at some_of
        have ordered : batch.map (Seq.toNat ∘ Prod.fst) =
          List.range' (r.sequencer.last.toNat + 1) batch.length := places
        rw [ordered] at some_of
        refine ⟨r.sequencer.last, s.last, by simp [lastApplied?, there],
          by simp [lastApplied?, touches.there], by omega, ?_, fun rejected mem => ?_⟩
        · exact List.pairwise_map.mp (List.Pairwise.sublist some_of List.pairwise_lt_range')
        · have within := some_of.subset (List.mem_map_of_mem mem)
          rw [List.mem_range'_1] at within
          simp only [Function.comp] at within
          omega
    | _ => cases done

/-- Whatever messages a new follower has handled, its replicas are those of its history, and one
more message advances it by the rules. -/
theorem mirrors_handled (c : Catalog) (config : SequencerConfig) (ms : List Message) :
    let f := (handleAll ms (.new c config)).2
    f.Mirrors c config (handled ms (.new c config)) ∧
    ∀ m, f.Advances m ((handle m).outcome f).1 ((handle m).outcome f).2 := by
  have accounted := (accounted_new c config).all ms
  exact ⟨accounted.mirrors, fun m => accounted.advances (handles _ m)⟩

end Accounts

end Follower

end SharedObjects
