import SharedObjects.Proofs.Sequencer
set_option autoImplicit false

namespace SharedObjects

/-- An item that was offered to a sequencer at a position, and the answer. -/
structure Offer (α : Type) where
  seq : Seq
  item : α
  answer : Except Fault (Arrival α)

namespace Offer

variable {α : Type}

def batch (o : Offer α) : List α :=
  match o.answer with
  | .ok (.ready items) => items
  | _ => []

def kept? (n : Nat) (o : Offer α) : Option α :=
  match o.answer with
  | .ok _ => if o.seq.toNat = n then some o.item else none
  | .error _ => none

end Offer

section Histories

variable {α : Type} {past : List (Offer α)} {o : Offer α} {n : Nat} {item : α}

def releasedItems (past : List (Offer α)) : List α := past.flatMap Offer.batch

/-- The first item offered at a position that was not refused. -/
def firstKept? (past : List (Offer α)) (n : Nat) : Option α := past.findSome? (Offer.kept? n)

theorem releasedItems_snoc (past : List (Offer α)) (o : Offer α) :
    releasedItems (past ++ [o]) = releasedItems past ++ o.batch := by
  simp [releasedItems]

theorem firstKept?_snoc (past : List (Offer α)) (o : Offer α) (n : Nat) :
    firstKept? (past ++ [o]) n = (firstKept? past n).or (o.kept? n) := by
  simp [firstKept?, List.findSome?_append]

theorem firstKept?_mono (kept : firstKept? past n = some item) (o : Offer α) :
    firstKept? (past ++ [o]) n = some item := by
  rw [firstKept?_snoc, kept, Option.some_or]

end Histories

namespace Sequencer

variable {α : Type} {s start : Sequencer α} {seq : Seq} {item : α} {past : List (Offer α)}

def offer (s : Sequencer α) (seq : Seq) (item : α) : Except Fault (Arrival α) × Sequencer α :=
  match s.accept seq item with
  | .ok (arrival, after) => (.ok arrival, after)
  | .error fault => (.error fault, s)

def offerAll : List (Seq × α) → Sequencer α → List (Offer α) × Sequencer α
  | [], s => ([], s)
  | (seq, item) :: rest, s =>
    let (answer, after) := s.offer seq item
    let (offers, final) := offerAll rest after
    (⟨seq, item, answer⟩ :: offers, final)

theorem offer_ok {arrival : Arrival α} {after : Sequencer α}
    (accepted : s.accept seq item = .ok (arrival, after)) :
    s.offer seq item = (.ok arrival, after) := by simp [offer, accepted]

theorem offer_error {fault : Fault} (refused : s.accept seq item = .error fault) :
    s.offer seq item = (.error fault, s) := by simp [offer, refused]

theorem room_of_buffered {after : Sequencer α}
    (accepted : s.accept seq item = .ok (.buffered, after)) :
    s.pending.length < s.config.maxPending := by
  unfold accept at accepted
  repeat' split at accepted
  all_goals cases accepted
  omega

theorem Taken.batch {arrival : Arrival α} {after : Sequencer α}
    (taken : Taken s seq item (.ok (arrival, after))) :
    after.last.toNat = s.last.toNat + (Offer.mk seq item (.ok arrival)).batch.length ∧
    ∀ i other, (Offer.mk seq item (.ok arrival)).batch[i]? = some other →
      ∃ k, k.toNat = s.last.toNat + 1 + i ∧
        (arrival ≠ .duplicate ∧ k = seq ∧ other = item ∨ s.pending.get? k = some other) := by
  cases taken with
  | known => exact ⟨rfl, nofun⟩
  | waits => exact ⟨rfl, nofun⟩
  | @ready items final rest place released =>
    have reached := released.final_eq
    refine ⟨by simp only [Offer.batch, List.length_cons]; omega, fun i other at_ => ?_⟩
    cases i with
    | zero =>
      obtain rfl : item = other := by simpa [Offer.batch] using at_
      exact ⟨seq, place, .inl ⟨nofun, rfl, rfl⟩⟩
    | succ i =>
      obtain ⟨k, behind, waits⟩ := released.item i other (by simpa [Offer.batch] using at_)
      exact ⟨k, by omega, .inr waits⟩

/-- How an item is answered, by its position. -/
structure Answers (s : Sequencer α) (seq : Seq) (item : α) : Prop where
  duplicate_iff : s.offer seq item = (.ok .duplicate, s) ↔
    seq.toNat ≤ s.last.toNat ∨ s.pending.contains seq = true
  ready_iff : (∃ items, (s.offer seq item).1 = .ok (.ready items)) ↔
    seq.toNat = s.last.toNat + 1
  refused_iff : s.offer seq item = (.error (.outOfOrder s.object s.last.next seq), s) ↔
    s.last.toNat + 1 < seq.toNat ∧ s.pending.contains seq = false ∧
      s.config.maxPending ≤ s.pending.length
  buffered_iff : s.offer seq item = (.ok .buffered, { s with pending := s.pending.put seq item }) ↔
    s.last.toNat + 1 < seq.toNat ∧ s.pending.contains seq = false ∧
      s.pending.length < s.config.maxPending

theorem Tidy.answers (tidy : s.Tidy) (seq : Seq) (item : α) : s.Answers seq item := by
  -- A position that waits is beyond the next one, so the four conditions exclude each other.
  have beyond : s.pending.contains seq = true → s.last.toNat + 1 < seq.toNat := fun waits =>
    have ⟨_, there⟩ := Entries.contains_iff.mp waits
    tidy.beyond there
  have taken := accept_spec tidy seq item
  cases result : s.accept seq item with
  | error fault =>
    rw [result] at taken
    have answer := offer_error result
    cases taken with
    | full ahead absent full =>
      constructor
      · simp [answer, absent]
        omega
      · simp [answer]
        omega
      · simp [answer, absent, ahead, full]
      · simp [answer, full]
  | ok found =>
    obtain ⟨arrival, after⟩ := found
    rw [result] at taken
    have answer := offer_ok result
    cases taken with
    | known here =>
      have near : seq.toNat ≠ s.last.toNat + 1 := by grind
      constructor
      · simp [answer, here]
      · simp [answer, near]
      · simp [answer]
        grind
      · simp [answer]
        grind
    | ready place released =>
      have absent : s.pending.contains seq = false := by grind
      constructor <;> simp [answer, place, absent]
    | waits ahead absent =>
      have room := room_of_buffered result
      constructor
      · simp [answer, absent]
        omega
      · simp [answer]
        omega
      · simp [answer, room]
      · simp [answer, absent, ahead, room]

/-- A sequencer holds what its history since `start` says: one item for each position released, the
first kept there, and the same for the positions that wait. -/
structure Recounts (s start : Sequencer α) (past : List (Offer α)) : Prop where
  tidy : s.Tidy
  frame : s.object = start.object ∧ s.config = start.config
  room : s.pending.length ≤ start.config.maxPending
  reached : s.last.toNat = start.last.toNat + (releasedItems past).length
  released : ∀ i item, (releasedItems past)[i]? = some item →
    firstKept? past (start.last.toNat + 1 + i) = some item
  waits : ∀ k item, s.pending.get? k = some item → firstKept? past k.toNat = some item
  known : ∀ n item, firstKept? past n = some item → s.Knows n

namespace Recounts

theorem begin (object : ObjectId) (last : Seq) (config : SequencerConfig) :
    (startAfter object last config : Sequencer α).Recounts (startAfter object last config) [] where
  tidy := tidy_startAfter object last config
  frame := ⟨rfl, rfl⟩
  room := Nat.zero_le _
  reached := rfl
  released := nofun
  waits := nofun
  known := nofun

theorem firstKept?_self (recounts : s.Recounts start past) (new : ¬s.Knows seq.toNat)
    (arrival : Arrival α) :
    firstKept? (past ++ [⟨seq, item, .ok arrival⟩]) seq.toNat = some item := by
  have none : firstKept? past seq.toNat = none := by
    cases earlier : firstKept? past seq.toNat with
    | none => rfl
    | some other => exact absurd (recounts.known _ other earlier) new
  simp [firstKept?_snoc, none, Offer.kept?]

theorem refuse (recounts : s.Recounts start past) (fault : Fault) :
    s.Recounts start (past ++ [⟨seq, item, .error fault⟩]) := by
  have released : releasedItems (past ++ [⟨seq, item, .error fault⟩]) = releasedItems past := by
    simp [releasedItems_snoc, Offer.batch]
  have kept (n : Nat) : firstKept? (past ++ [⟨seq, item, .error fault⟩]) n = firstKept? past n := by
    simp [firstKept?_snoc, Offer.kept?]
  refine { recounts with reached := ?_, released := ?_, waits := ?_, known := ?_ }
  · rw [released]
    exact recounts.reached
  · intro i other at_
    rw [released] at at_
    rw [kept]
    exact recounts.released i other at_
  · intro k other waits
    rw [kept]
    exact recounts.waits k other waits
  · intro n other there
    rw [kept] at there
    exact recounts.known n other there

theorem take (recounts : s.Recounts start past) {arrival : Arrival α} {after : Sequencer α}
    (accepted : s.accept seq item = .ok (arrival, after)) :
    after.Recounts start (past ++ [⟨seq, item, .ok arrival⟩]) := by
  have taken := accepted ▸ accept_spec recounts.tidy seq item
  have first (new : arrival ≠ .duplicate) :
      firstKept? (past ++ [⟨seq, item, .ok arrival⟩]) seq.toNat = some item :=
    recounts.firstKept?_self (taken.new recounts.tidy new) arrival
  obtain ⟨reached, batch⟩ := taken.batch
  constructor
  · exact taken.tidy recounts.tidy
  · exact ⟨taken.frame.1.trans recounts.frame.1, taken.frame.2.trans recounts.frame.2⟩
  · have room := recounts.room
    rw [← recounts.frame.2] at room ⊢
    exact room_of_accept room accepted
  · rw [reached, recounts.reached, releasedItems_snoc, List.length_append, Nat.add_assoc]
  · intro i other at_
    rw [releasedItems_snoc, List.getElem?_append] at at_
    split at at_
    · exact firstKept?_mono (recounts.released i other at_) _
    · rename_i later
      have before := recounts.reached
      obtain ⟨k, place, came⟩ := batch _ other at_
      have here : start.last.toNat + 1 + i = k.toNat := by omega
      rw [here]
      rcases came with ⟨new, rfl, rfl⟩ | waited
      · exact first new
      · exact firstKept?_mono (recounts.waits k other waited) _
  · intro k other waits
    by_cases new : arrival = .duplicate
    · subst new
      obtain rfl := eq_of_duplicate accepted
      exact firstKept?_mono (recounts.waits k other waits) _
    · rcases taken.mem_pending waits with old | ⟨rfl, rfl⟩
      · exact firstKept?_mono (recounts.waits k other old) _
      · exact first new
  · intro n other kept
    rw [firstKept?_snoc, Option.or_eq_some_iff] at kept
    rcases kept with old | ⟨-, now⟩
    · exact taken.knows (.inl (recounts.known n other old))
    · have here : seq.toNat = n := by
        by_contra elsewhere
        simp [Offer.kept?, elsewhere] at now
      exact taken.knows (.inr here.symm)

theorem offer (recounts : s.Recounts start past) (seq : Seq) (item : α) :
    (s.offer seq item).2.Recounts start (past ++ [⟨seq, item, (s.offer seq item).1⟩]) := by
  cases result : s.accept seq item with
  | error fault =>
    rw [offer_error result]
    exact recounts.refuse fault
  | ok found =>
    rw [offer_ok result]
    exact recounts.take result

theorem offerAll (recounts : s.Recounts start past) (calls : List (Seq × α)) :
    (Sequencer.offerAll calls s).2.Recounts start (past ++ (Sequencer.offerAll calls s).1) := by
  induction calls generalizing s past with
  | nil => simpa [Sequencer.offerAll] using recounts
  | cons call rest ih =>
    obtain ⟨seq, item⟩ := call
    simpa [Sequencer.offerAll] using ih (recounts.offer seq item)

theorem released_eq (recounts : s.Recounts start past) :
    (releasedItems past).map some =
      (List.range' (start.last.toNat + 1) (releasedItems past).length).map (firstKept? past) := by
  refine List.ext_getElem (by simp) fun i within _ => ?_
  have short : i < (releasedItems past).length := by simpa using within
  have first := recounts.released i _ (List.getElem?_eq_getElem short)
  simp [first]

end Recounts

/-- After whatever has been offered to a new sequencer, the items released are one for each position
behind the start up to the last, in their order, and each is the first that was not refused there.
Those that wait are beyond the next position, and not more than may wait. Whatever is offered next
is a duplicate exactly if its position was released or waits, is released exactly if it is the next
one, however many wait, is refused and changes nothing exactly if it is beyond that, does not wait
and no more may wait, and is kept waiting otherwise. -/
theorem released_in_order (object : ObjectId) (last : Seq) (config : SequencerConfig)
    (calls : List (Seq × α)) :
    let start := startAfter object last config
    let past := (offerAll calls start).1
    let s := (offerAll calls start).2
    (releasedItems past).map some =
      (List.range' (last.toNat + 1) (releasedItems past).length).map (firstKept? past) ∧
    s.last.toNat = last.toNat + (releasedItems past).length ∧
    (∀ k item, s.pending.get? k = some item → s.last.toNat + 1 < k.toNat) ∧
    s.pending.Distinct ∧ s.pending.length ≤ config.maxPending ∧
    s.object = object ∧ s.config = config ∧
    ∀ seq item, s.Answers seq item := by
  intro start past s
  have recounts : s.Recounts start past := by
    simpa using (Recounts.begin object last config).offerAll calls
  obtain ⟨named, configured⟩ := recounts.frame
  exact ⟨recounts.released_eq, recounts.reached, fun k item waits => recounts.tidy.beyond waits,
    recounts.tidy.distinct, recounts.room, named, configured, recounts.tidy.answers⟩

/-- The last to come fills the gap; what came first at a position is released there. -/
example : releasedItems (offerAll [(⟨3⟩, "c"), (⟨2⟩, "b"), (⟨3⟩, "d"), (⟨1⟩, "a")]
    (startAfter ⟨7⟩ .zero .default)).1 = ["a", "b", "c"] := by decide

end Sequencer

end SharedObjects
