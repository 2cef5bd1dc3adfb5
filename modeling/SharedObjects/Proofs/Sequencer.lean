import Mathlib.Order.Interval.Finset.Nat
import SharedObjects.Sequencer
set_option autoImplicit false

namespace SharedObjects

namespace Seq

variable {a b : Seq}

def toNat (a : Seq) : Nat := a.number.toNat

theorem ext (same : a.toNat = b.toNat) : a = b := by
  cases a
  cases b
  simpa [toNat, UInt64.toNat_inj] using same

theorem le_iff : a ≤ b ↔ a.toNat ≤ b.toNat := UInt64.le_iff_toNat_le

theorem toNat_lt (a : Seq) : a.toNat < UInt64.size := a.number.toNat_lt

theorem toNat_next (room : a.toNat + 1 < UInt64.size) : a.next.toNat = a.toNat + 1 := by
  simp only [toNat, next, UInt64.size] at room ⊢
  rw [UInt64.toNat_add]
  simp
  omega

theorem toNat_next_of_lt (later : a.toNat < a.next.toNat) : a.next.toNat = a.toNat + 1 := by
  by_cases room : a.toNat + 1 < UInt64.size
  · exact toNat_next room
  · have := a.toNat_lt
    have := a.next.toNat_lt
    simp only [toNat, next, UInt64.size] at *
    rw [UInt64.toNat_add] at later
    simp at later
    omega

theorem eq_next_of_toNat_eq (same : b.toNat = a.toNat + 1) : b = a.next := by
  apply ext
  have := b.toNat_lt
  rw [same, toNat_next (by omega)]

end Seq

namespace Entries

variable {κ ν : Type} [DecidableEq κ] {es : Entries κ ν} {k : κ}

theorem contains_iff : es.contains k = true ↔ ∃ v, es.get? k = some v := by
  simp [contains, Option.isSome_iff_exists]

theorem length_erase_lt (present : es.contains k = true) : (es.erase k).length < es.length := by
  induction es with
  | nil => simp [contains] at present
  | cons e es ih =>
    by_cases same : e.1 = k
    · have : (es.filter fun e => e.1 ≠ k).length ≤ es.length := List.length_filter_le _ _
      simp only [erase, List.filter_cons, same, ne_eq, not_true_eq_false, decide_false,
        Bool.false_eq_true, if_false, List.length_cons]
      simp only [ne_eq] at this
      omega
    · have smaller := ih (by simpa [contains, get?, same] using present)
      simp only [erase, List.filter_cons, ne_eq, same, not_false_eq_true, decide_true, if_true,
        List.length_cons] at smaller ⊢
      omega

theorem length_put_le (k : κ) (v : ν) (es : Entries κ ν) :
    (es.put k v).length ≤ es.length + 1 := by
  induction es with
  | nil => simp [put]
  | cons e es ih =>
    by_cases same : e.1 = k
    · simp [put, same]
    · simpa [put, same] using ih

end Entries

namespace Sequencer

variable {α : Type} {s : Sequencer α} {seq last final : Seq} {pending rest : Entries Seq α}
  {item : α} {items : List α}

def Later (last : Seq) (pending : Entries Seq α) : Prop :=
  ∀ k item, pending.get? k = some item → last.toNat < k.toNat

/-- What a release takes from behind `last`: items without a gap up to `final`. All others wait
still, and there is a gap before them. -/
structure Released (last : Seq) (pending : Entries Seq α) (items : List α) (final : Seq)
    (rest : Entries Seq α) : Prop where
  final_eq : final.toNat = last.toNat + items.length
  item : ∀ i item, items[i]? = some item → ∃ k, k.toNat = last.toNat + 1 + i ∧
    pending.get? k = some item
  distinct : rest.Distinct
  rest_eq : ∀ k, rest.get? k = if k.toNat ≤ final.toNat then none else pending.get? k
  gap : rest.get? final.next = none

theorem Later.erase_next (later : Later last pending)
    (step : last.next.toNat = last.toNat + 1) : Later last.next (pending.erase last.next) := by
  intro k other waits
  rw [Entries.get?_erase] at waits
  split at waits
  · cases waits
  · rename_i different
    have := later k other waits
    have : k.toNat ≠ last.next.toNat := fun same => different (Seq.ext same)
    omega

theorem Released.nothing (distinct : pending.Distinct) (later : Later last pending)
    (gap : pending.get? last.next = none) : Released last pending [] last pending := by
  refine ⟨by simp, by simp, distinct, fun k => ?_, gap⟩
  split
  · cases waits : pending.get? k with
    | none => rfl
    | some item =>
      have := later k item waits
      omega
  · rfl

theorem Released.cons (step : last.next.toNat = last.toNat + 1)
    (next : pending.get? last.next = some item)
    (released : Released last.next (pending.erase last.next) items final rest) :
    Released last pending (item :: items) final rest := by
  have final_eq := released.final_eq
  refine ⟨by rw [final_eq, step, List.length_cons]; omega, fun i other at_ => ?_,
    released.distinct, fun k => ?_, released.gap⟩
  · cases i with
    | zero =>
      obtain rfl : item = other := by simpa using at_
      exact ⟨last.next, step, next⟩
    | succ i =>
      obtain ⟨k, place, waits⟩ := released.item i other (by simpa using at_)
      rw [Entries.get?_erase] at waits
      split at waits
      · cases waits
      · exact ⟨k, by omega, waits⟩
  · rw [released.rest_eq, Entries.get?_erase]
    split
    · rfl
    · rename_i beyond
      have : k ≠ last.next := by
        rintro rfl
        omega
      simp [this]

theorem release_spec {fuel : Nat} (distinct : pending.Distinct) (later : Later last pending)
    (enough : pending.length ≤ fuel) :
    ∃ items final rest, release fuel last pending = (items, final, rest) ∧
      Released last pending items final rest := by
  induction fuel generalizing last pending with
  | zero =>
    obtain rfl : pending = [] := by simpa using enough
    exact ⟨[], last, [], rfl, .nothing distinct later rfl⟩
  | succ fuel ih =>
    cases next : pending.get? last.next with
    | none => exact ⟨[], last, pending, by simp [release, next], .nothing distinct later next⟩
    | some item =>
      -- Whatever waits is later than `last`, so an item in the next place means no overflow there.
      have step : last.next.toNat = last.toNat + 1 := Seq.toNat_next_of_lt (later _ _ next)
      have fewer := Entries.length_erase_lt (Entries.contains_iff.mpr ⟨item, next⟩)
      obtain ⟨items, final, rest, released, spec⟩ :=
        ih (distinct.erase last.next) (later.erase_next step) (by omega)
      exact ⟨item :: items, final, rest, by simp [release, next, released], spec.cons step next⟩

theorem Released.final_le (released : Released last pending items final rest) {bound : Nat}
    (here : last.toNat ≤ bound) (all : ∀ k item, pending.get? k = some item → k.toNat ≤ bound) :
    final.toNat ≤ bound := by
  have final_eq := released.final_eq
  cases count : items.length with
  | zero => omega
  | succ n =>
    obtain ⟨k, place, waits⟩ := released.item n items[n] (by simp)
    have := all k _ waits
    omega

theorem Released.of_nil (released : Released last [] items final rest) :
    items = [] ∧ final = last ∧ rest = [] := by
  obtain rfl : items = [] := by
    cases items with
    | nil => rfl
    | cons item items =>
      obtain ⟨k, _, waits⟩ := released.item 0 item rfl
      cases waits
  refine ⟨rfl, Seq.ext (by simpa using released.final_eq), ?_⟩
  cases rest with
  | nil => rfl
  | cons e es =>
    have none := released.rest_eq e.1
    simp [Entries.get?] at none

/-- Items wait once each, behind a gap. -/
structure Tidy (s : Sequencer α) : Prop where
  distinct : s.pending.Distinct
  later : Later s.last s.pending
  gap : s.pending.get? s.last.next = none

theorem tidy_startAfter (object : ObjectId) (last : Seq) (config : SequencerConfig) :
    (startAfter object last config : Sequencer α).Tidy := ⟨List.nodup_nil, nofun, rfl⟩

theorem Tidy.beyond (tidy : s.Tidy) (waits : s.pending.get? seq = some item) :
    s.last.toNat + 1 < seq.toNat := by
  have later := tidy.later seq item waits
  have : seq.toNat ≠ s.last.toNat + 1 := fun same => by
    rw [Seq.eq_next_of_toNat_eq same, tidy.gap] at waits
    cases waits
  omega

/-- What comes of an item offered to a sequencer. -/
inductive Taken (s : Sequencer α) (seq : Seq) (item : α) :
    Except Fault (Arrival α × Sequencer α) → Prop
  | known : seq.toNat ≤ s.last.toNat ∨ s.pending.contains seq = true →
    Taken s seq item (.ok (.duplicate, s))
  | ready {items : List α} {final : Seq} {rest : Entries Seq α} :
    seq.toNat = s.last.toNat + 1 → Released seq s.pending items final rest →
    Taken s seq item (.ok (.ready (item :: items), { s with last := final, pending := rest }))
  | waits : s.last.toNat + 1 < seq.toNat → s.pending.contains seq = false →
    Taken s seq item (.ok (.buffered, { s with pending := s.pending.put seq item }))
  | full : s.last.toNat + 1 < seq.toNat → s.pending.contains seq = false →
    s.config.maxPending ≤ s.pending.length →
    Taken s seq item (.error (.outOfOrder s.object s.last.next seq))

theorem accept_spec (tidy : s.Tidy) (seq : Seq) (item : α) :
    Taken s seq item (s.accept seq item) := by
  unfold accept
  by_cases known : seq ≤ s.last ∨ s.pending.contains seq = true
  · have known' : (seq ≤ s.last || s.pending.contains seq) = true := by simpa using known
    simp only [known', if_true]
    exact .known (known.imp Seq.le_iff.mp id)
  · have known' : ¬(seq ≤ s.last || s.pending.contains seq) = true := by simpa using known
    simp only [known', Bool.false_eq_true, if_false]
    obtain ⟨new, absent⟩ := not_or.mp known
    rw [Seq.le_iff] at new
    by_cases next : seq = s.last.next
    · have place : seq.toNat = s.last.toNat + 1 := by
        rw [next]
        exact Seq.toNat_next_of_lt (by rw [← next]; omega)
      have later : Later seq s.pending := fun k item waits => by
        have := tidy.beyond waits
        omega
      obtain ⟨items, final, rest, released, spec⟩ :=
        release_spec tidy.distinct later (Nat.le_refl s.pending.length)
      simp only [next, if_true]
      rw [next] at released spec
      simp only [released]
      exact .ready (next ▸ place) spec
    · have beyond : s.last.toNat + 1 < seq.toNat := by
        have : seq.toNat ≠ s.last.toNat + 1 := fun same => next (Seq.eq_next_of_toNat_eq same)
        omega
      simp only [next, if_false]
      by_cases full : s.pending.length ≥ s.config.maxPending
      · simp only [full, if_true]
        exact .full beyond (by simpa using absent) full
      · simp only [full, if_false]
        exact .waits beyond (by simpa using absent)

theorem eq_of_duplicate {after : Sequencer α}
    (accepted : s.accept seq item = .ok (.duplicate, after)) : after = s := by
  unfold accept at accepted
  repeat' split at accepted
  all_goals cases accepted
  rfl

/-- Has the item at this position been released, or does it wait? -/
def Knows (s : Sequencer α) (n : Nat) : Prop :=
  n ≤ s.last.toNat ∨ ∃ k, k.toNat = n ∧ s.pending.contains k = true

theorem Taken.tidy {arrival : Arrival α} {after : Sequencer α} (tidy : s.Tidy)
    (taken : Taken s seq item (.ok (arrival, after))) : after.Tidy := by
  cases taken with
  | known _ => exact tidy
  | @ready items final rest _ released =>
    refine ⟨released.distinct, fun k other waits => ?_, released.gap⟩
    have beyond := (released.rest_eq k).symm.trans waits
    split at beyond
    · cases beyond
    · show final.toNat < k.toNat
      omega
  | waits beyond _ =>
    refine ⟨tidy.distinct.put _, fun k other waits => ?_, ?_⟩
    · by_cases same : k = seq
      · subst same
        show s.last.toNat < k.toNat
        omega
      · exact tidy.later k other ((Entries.get?_put_ne same _ _).symm.trans waits)
    · have different : s.last.next ≠ seq := by
        intro same
        have := Seq.toNat_next_of_lt (a := s.last) (by rw [same]; omega)
        rw [same] at this
        omega
      exact (Entries.get?_put_ne different _ _).trans tidy.gap

theorem Taken.knows {arrival : Arrival α} {after : Sequencer α}
    (taken : Taken s seq item (.ok (arrival, after))) {n : Nat}
    (known : s.Knows n ∨ n = seq.toNat) : after.Knows n := by
  cases taken with
  | known here =>
    rcases known with known | rfl
    · exact known
    · exact here.imp id fun waits => ⟨seq, rfl, waits⟩
  | @ready items final rest place released =>
    have reached := released.final_eq
    by_cases passed : n ≤ final.toNat
    · exact .inl passed
    · rcases known with (old | ⟨k, rfl, waits⟩) | rfl
      · omega
      · obtain ⟨other, waits⟩ := Entries.contains_iff.mp waits
        have still := ((released.rest_eq k).trans (if_neg passed)).trans waits
        exact .inr ⟨k, rfl, Entries.contains_iff.mpr ⟨other, still⟩⟩
      · omega
  | waits beyond _ =>
    rcases known with (old | ⟨k, rfl, waits⟩) | rfl
    · exact .inl old
    · refine .inr ⟨k, rfl, ?_⟩
      by_cases same : k = seq
      · exact same ▸ Entries.contains_iff.mpr ⟨item, Entries.get?_put_self _ _ _⟩
      · obtain ⟨other, waits⟩ := Entries.contains_iff.mp waits
        exact Entries.contains_iff.mpr ⟨other, (Entries.get?_put_ne same _ _).trans waits⟩
    · exact .inr ⟨seq, rfl, Entries.contains_iff.mpr ⟨item, Entries.get?_put_self _ _ _⟩⟩

theorem Taken.new {arrival : Arrival α} {after : Sequencer α} (tidy : s.Tidy)
    (taken : Taken s seq item (.ok (arrival, after))) (new : arrival ≠ .duplicate) :
    ¬s.Knows seq.toNat := by
  rintro (old | ⟨k, same, waits⟩)
  · cases taken with
    | known => exact new rfl
    | ready place => omega
    | waits beyond => omega
  · obtain rfl : k = seq := Seq.ext same
    obtain ⟨other, there⟩ := Entries.contains_iff.mp waits
    have beyond := tidy.beyond there
    cases taken with
    | known => exact new rfl
    | ready place => omega
    | waits _ absent => simp [absent] at waits

theorem Taken.mem_pending {arrival : Arrival α} {after : Sequencer α}
    (taken : Taken s seq item (.ok (arrival, after))) {k : Seq} {other : α}
    (waits : after.pending.get? k = some other) :
    s.pending.get? k = some other ∨ k = seq ∧ other = item := by
  cases taken with
  | known _ => exact .inl waits
  | ready _ released =>
    have before := (released.rest_eq k).symm.trans waits
    split at before
    · cases before
    · exact .inl before
  | waits _ _ =>
    by_cases same : k = seq
    · subst same
      have put := (Entries.get?_put_self k item s.pending).symm.trans waits
      exact .inr ⟨rfl, (Option.some.inj put).symm⟩
    · exact .inl ((Entries.get?_put_ne same _ _).symm.trans waits)

theorem Taken.last_le {arrival : Arrival α} {after : Sequencer α}
    (taken : Taken s seq item (.ok (arrival, after))) : s.last.toNat ≤ after.last.toNat := by
  cases taken with
  | known _ => exact Nat.le_refl _
  | @ready items final rest place released =>
    have := released.final_eq
    show s.last.toNat ≤ final.toNat
    omega
  | waits _ _ => exact Nat.le_refl _

theorem Taken.frame {arrival : Arrival α} {after : Sequencer α}
    (taken : Taken s seq item (.ok (arrival, after))) :
    after.object = s.object ∧ after.config = s.config := by
  cases taken <;> exact ⟨rfl, rfl⟩

theorem length_release_le (fuel : Nat) (last : Seq) (pending : Entries Seq α) :
    (release fuel last pending).2.2.length ≤ pending.length := by
  induction fuel generalizing last pending with
  | zero => exact Nat.le_refl _
  | succ fuel ih =>
    cases next : pending.get? last.next with
    | none => simp [release, next]
    | some item =>
      have fewer := Entries.length_erase_lt (Entries.contains_iff.mpr ⟨item, next⟩)
      simp only [release, next]
      exact Nat.le_trans (ih _ _) (Nat.le_of_lt fewer)

theorem room_of_accept {arrival : Arrival α} {after : Sequencer α}
    (room : s.pending.length ≤ s.config.maxPending)
    (accepted : s.accept seq item = .ok (arrival, after)) :
    after.pending.length ≤ s.config.maxPending := by
  unfold accept at accepted
  split at accepted
  · cases accepted
    exact room
  split at accepted
  · cases accepted
    exact Nat.le_trans (length_release_le _ _ _) room
  split at accepted
  · cases accepted
  · cases accepted
    have added := Entries.length_put_le seq item s.pending
    dsimp only
    omega

def Steady : Nat → List Nat → Prop
  | _, [] => True
  | reached, n :: ns => n ≤ reached + 1 ∧ Steady (max reached n) ns

theorem Steady.append {reached n before : Nat} {ns : List Nat} (steady : Steady reached ns)
    (next : n ≤ before + 1) (there : before ≤ reached ∨ before ∈ ns) :
    Steady reached (ns ++ [n]) := by
  induction ns generalizing reached with
  | nil =>
    have : before ≤ reached := by simpa using there
    exact ⟨by omega, trivial⟩
  | cons m ns ih =>
    refine ⟨steady.1, ih steady.2 ?_⟩
    simp only [List.mem_cons] at there
    rcases there with low | rfl | mem
    · exact .inl (by omega)
    · exact .inl (by omega)
    · exact .inr mem

/-- What is still to arrive, or waits, fills the positions up to `final`, which are not more than
`window` from the last one released. If it comes in order then nothing waits. -/
structure Due (ordered : Prop) (window : Nat) (s : Sequencer α) (final : Nat) (ns : List Nat) :
    Prop where
  tidy : s.Tidy
  last_le : s.last.toNat ≤ final
  pending_le : ∀ k item, s.pending.get? k = some item → k.toNat ≤ final
  ahead : ∀ n ∈ ns, n ≤ final
  all : ∀ n ≤ final, s.Knows n ∨ n ∈ ns
  steady : ordered → s.pending = [] ∧ Steady s.last.toNat ns
  near : final ≤ s.last.toNat + window

namespace Due

variable {ordered : Prop} {window n : Nat} {final : Nat} {ns : List Nat}

theorem of_last (tidy : s.Tidy) (empty : s.pending = []) (window : Nat) :
    s.Due ordered window s.last.toNat [] where
  tidy := tidy
  last_le := Nat.le_refl _
  pending_le := fun k item waits => by simp [empty] at waits
  ahead := by simp
  all := fun n le => .inl (.inl le)
  steady := fun _ => ⟨empty, trivial⟩
  near := Nat.le_add_right _ _

theorem done (due : s.Due ordered window final []) : s.last.toNat = final ∧ s.pending = [] := by
  have reached : final ≤ s.last.toNat := by
    by_contra short
    rcases due.all (s.last.toNat + 1) (by omega) with (passed | ⟨k, place, waits⟩) | none
    · omega
    · obtain ⟨item, waits⟩ := Entries.contains_iff.mp waits
      have := due.tidy.beyond waits
      omega
    · cases none
  refine ⟨Nat.le_antisymm due.last_le reached, ?_⟩
  cases pending : s.pending with
  | nil => rfl
  | cons e es =>
    have waits : s.pending.get? e.1 = some e.2 := by simp [pending, Entries.get?]
    have := due.tidy.beyond waits
    have := due.pending_le _ _ waits
    omega

theorem length_lt (due : s.Due ordered window final ns) (beyond : s.last.toNat + 1 < seq.toNat)
    (new : s.pending.contains seq = false) (ahead : seq.toNat ≤ final) :
    s.pending.length + s.last.toNat + 1 < final := by
  have absent : seq ∉ s.pending.keys := by simp [Entries.mem_keys_iff, new]
  have places : ∀ k ∈ seq :: s.pending.keys, s.last.toNat + 1 < k.toNat ∧ k.toNat ≤ final := by
    intro k mem
    rcases List.mem_cons.mp mem with rfl | mem
    · exact ⟨beyond, ahead⟩
    · obtain ⟨item, waits⟩ := Entries.contains_iff.mp (Entries.mem_keys_iff.mp mem)
      exact ⟨due.tidy.beyond waits, due.pending_le k item waits⟩
  have distinct : ((seq :: s.pending.keys).map Seq.toNat).Nodup :=
    List.Nodup.map (fun _ _ => Seq.ext) (List.nodup_cons.mpr ⟨absent, due.tidy.distinct⟩)
  -- Distinct places in an interval are counted against its length.
  have within : ((seq :: s.pending.keys).map Seq.toNat).toFinset ⊆
      Finset.Ioc (s.last.toNat + 1) final := by
    intro n mem
    rw [List.mem_toFinset, List.mem_map] at mem
    obtain ⟨k, mem, rfl⟩ := mem
    exact Finset.mem_Ioc.mpr (places k mem)
  have count := Finset.card_le_card within
  rw [List.toFinset_card_of_nodup distinct, Nat.card_Ioc] at count
  simp only [List.length_map, List.length_cons, Entries.keys] at count
  omega

theorem publish {early late copies : List Nat} (due : s.Due ordered window final (early ++ late))
    (kept : ordered → late = []) (copied : copies = [] ∨ copies = [final + 1]) :
    s.Due ordered (window + 1) (final + 1) (early ++ (final + 1) :: late ++ copies) where
  tidy := due.tidy
  last_le := Nat.le_succ_of_le due.last_le
  pending_le := fun k item waits => Nat.le_succ_of_le (due.pending_le k item waits)
  ahead := by
    intro n mem
    have old : n ∈ early ++ late → n ≤ final := due.ahead n
    have new : n ∈ early ++ late ∨ n = final + 1 := by
      rcases copied with rfl | rfl <;> simp at mem ⊢ <;> tauto
    exact new.elim (fun mem => Nat.le_succ_of_le (old mem)) Nat.le_of_eq
  all := by
    intro n le
    by_cases last : n = final + 1
    · exact .inr (by simp [last])
    · refine (due.all n (by omega)).imp id fun mem => ?_
      simp only [List.mem_append, List.mem_cons] at mem ⊢
      tauto
  steady := by
    intro keeps
    obtain rfl := kept keeps
    obtain ⟨empty, steady⟩ := due.steady keeps
    simp only [List.append_nil] at steady
    have reached : final ≤ s.last.toNat ∨ final ∈ early := by
      rcases due.all final (Nat.le_refl _) with (passed | ⟨k, _, waits⟩) | mem
      · exact .inl passed
      · simp [empty, Entries.contains] at waits
      · exact .inr (by simpa using mem)
    have last_le := due.last_le
    have once := steady.append (Nat.le_refl (final + 1)) reached
    refine ⟨empty, ?_⟩
    rcases copied with rfl | rfl
    · simpa using once
    · exact once.append (Nat.le_succ _) (.inr (by simp))
  near := by
    have := due.near
    omega

/-- What arrives ahead of its turn finds room: it and all that waits have places of their own in the
window. -/
theorem not_full (due : s.Due ordered window final (seq.toNat :: ns))
    (room : ordered ∨ window ≤ s.config.maxPending + 1) (beyond : s.last.toNat + 1 < seq.toNat)
    (new : s.pending.contains seq = false) : s.pending.length < s.config.maxPending := by
  rcases room with keeps | room
  · have := (due.steady keeps).2.1
    omega
  · have := due.length_lt beyond new (due.ahead _ (by simp))
    have := due.near
    omega

theorem steady_of_taken {arrival : Arrival α} {after : Sequencer α}
    (due : s.Due ordered window final (seq.toNat :: ns))
    (taken : Taken s seq item (.ok (arrival, after))) (keeps : ordered) :
    after.pending = [] ∧ Steady after.last.toNat ns := by
  obtain ⟨empty, next, steady⟩ := due.steady keeps
  cases taken with
  | known here =>
    rcases here with old | waits
    · exact ⟨empty, by rwa [Nat.max_eq_left old] at steady⟩
    · simp [empty, Entries.contains] at waits
  | ready place released =>
    rw [empty] at released
    obtain ⟨rfl, rfl, rfl⟩ := released.of_nil
    refine ⟨rfl, ?_⟩
    rwa [Nat.max_eq_right (by omega)] at steady
  | waits beyond _ => omega

theorem taken {arrival : Arrival α} {after : Sequencer α}
    (due : s.Due ordered window final (seq.toNat :: ns))
    (taken : Taken s seq item (.ok (arrival, after))) : after.Due ordered window final ns where
  tidy := taken.tidy due.tidy
  last_le := by
    cases taken with
    | known _ => exact due.last_le
    | ready _ released => exact released.final_le (due.ahead _ (by simp)) due.pending_le
    | waits _ _ => exact due.last_le
  pending_le := by
    intro k other waits
    rcases taken.mem_pending waits with old | ⟨rfl, _⟩
    · exact due.pending_le k other old
    · exact due.ahead _ (by simp)
  ahead := fun n mem => due.ahead n (by simp [mem])
  all := by
    intro n le
    rcases due.all n le with known | mem
    · exact .inl (taken.knows (.inl known))
    · rcases List.mem_cons.mp mem with rfl | mem
      · exact .inl (taken.knows (.inr rfl))
      · exact .inr mem
  steady := due.steady_of_taken taken
  near := by
    have := due.near
    have := taken.last_le
    omega

theorem accept (due : s.Due ordered window final (seq.toNat :: ns))
    (room : ordered ∨ window ≤ s.config.maxPending + 1) (item : α) :
    ∃ arrival after, s.accept seq item = .ok (arrival, after) ∧
      Taken s seq item (.ok (arrival, after)) ∧ after.Due ordered window final ns := by
  have taken := accept_spec due.tidy seq item
  cases result : s.accept seq item with
  | error fault =>
    rw [result] at taken
    cases taken with
    | full beyond new full => exact absurd full (Nat.not_le.mpr (due.not_full room beyond new))
  | ok found =>
    obtain ⟨arrival, after⟩ := found
    rw [result] at taken
    exact ⟨arrival, after, rfl, taken, due.taken taken⟩

end Due

end Sequencer

end SharedObjects
