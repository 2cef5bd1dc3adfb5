import SharedObjects.Proofs.Cluster.Chronicle
/-!
The stories of hosted objects. Each unfolds event by event, so a copy that starts at some point of
its story and takes the events in turn goes through the rest of it, and none is refused.
-/
set_option autoImplicit false

namespace SharedObjects

variable {c : Catalog}

namespace Story

variable {s : Story} {n : Nat} {values : List Value} {event : Event}

/-- Every event is one that the object takes, and leaves the values behind that are written down. -/
structure Valid (c : Catalog) (s : Story) : Prop where
  live : s.object.stage = .live
  quiet : s.object.listeners = []
  known : c.get? s.object.type.name = some s.object.type
  distributed : s.object.type.isDistributed = true
  keyed : ∀ n values, s.valuesAfter n = some values → ∀ v ∈ values, v.WellKeyed
  carried : ∀ entry ∈ s.events, entry.1.WellKeyed
  unfolds : ∀ n event values, s.events[n]? = some (event, values) →
    ∃ before, s.valuesAfter n = some before ∧
      { s.object with values := before }.apply event = .ok { s.object with values := values }

theorem valuesAfter_add (told : s.valuesAfter n = some values) (event : Event) (more : List Value) :
    (s.add event more).valuesAfter n = some values := by
  cases n with
  | zero => exact told
  | succ n =>
    obtain ⟨entry, at_, rfl⟩ := Option.map_eq_some_iff.mp told
    have within := (List.getElem?_eq_some_iff.mp at_).1
    simp only [valuesAfter, add, List.getElem?_append_left within, at_]
    rfl

theorem valuesAfter_length_add (s : Story) (event : Event) (values : List Value) :
    (s.add event values).valuesAfter (s.events.length + 1) = some values := by
  simp [valuesAfter, add]

theorem valuesAfter_of_add {more : List Value}
    (told : (s.add event more).valuesAfter n = some values) :
    s.valuesAfter n = some values ∨ n = s.events.length + 1 ∧ values = more := by
  cases n with
  | zero => exact .inl told
  | succ n =>
    by_cases within : n < s.events.length
    · exact .inl (by simpa [valuesAfter, add, List.getElem?_append_left within] using told)
    · obtain ⟨entry, at_, rfl⟩ := Option.map_eq_some_iff.mp told
      simp only [add, List.getElem?_append_right (by omega : s.events.length ≤ n),
        List.getElem?_singleton] at at_
      split at at_
      · cases at_
        exact .inr ⟨by omega, rfl⟩
      · cases at_

theorem Valid.begin {o : SharedObject} (live : o.stage = .live) (quiet : o.listeners = [])
    (known : c.get? o.type.name = some o.type) (distributed : o.type.isDistributed = true)
    (keyed : ∀ v ∈ o.values, v.WellKeyed) : Valid c ⟨o, []⟩ where
  live := live
  quiet := quiet
  known := known
  distributed := distributed
  keyed := fun n values told => by
    cases n with
    | zero =>
      cases told
      exact keyed
    | succ n => cases told
  carried := nofun
  unfolds := nofun

theorem Valid.add (valid : s.Valid c) (here : s.valuesAfter s.events.length = some values)
    {after : SharedObject} (applied : { s.object with values := values }.apply event = .ok after)
    (keyed : event.WellKeyed) : (s.add event after.values).Valid c where
  live := valid.live
  quiet := valid.quiet
  known := valid.known
  distributed := valid.distributed
  keyed := fun n found told => by
    rcases valuesAfter_of_add told with old | ⟨-, rfl⟩
    · exact valid.keyed n found old
    · exact SharedObject.wellKeyed_of_apply applied (valid.keyed _ _ here) keyed
  carried := fun entry mem => by
    rcases List.mem_append.mp mem |>.imp id List.mem_singleton.mp with old | rfl
    · exact valid.carried entry old
    · exact keyed
  unfolds := fun n other found at_ => by
    by_cases within : n < s.events.length
    · simp only [Story.add, List.getElem?_append_left within] at at_
      obtain ⟨before, told, step⟩ := valid.unfolds n other found at_
      exact ⟨before, valuesAfter_add told _ _, step⟩
    · simp only [Story.add, List.getElem?_append_right (by omega : s.events.length ≤ n),
        List.getElem?_singleton] at at_
      split at at_
      · cases at_
        obtain rfl : n = s.events.length := by omega
        refine ⟨values, valuesAfter_add here _ _, applied.trans ?_⟩
        rw [SharedObject.apply_eq applied]
        rfl
      · cases at_

end Story

abbrev Stories := List Story

namespace Stories

variable {ss : Stories} {h : Handle} {n : Nat} {o after : SharedObject} {event : Event}

/-- After so many events this is what the object was. -/
def Tells (ss : Stories) (h : Handle) (n : Nat) (o : SharedObject) : Prop :=
  ∃ s, ss[h.place]? = some s ∧ s.valuesAfter n = some o.values ∧
    o = { s.object with values := o.values }

def Reports (ss : Stories) (h : Handle) (n : Nat) (event : Event) : Prop :=
  ∃ s i values, ss[h.place]? = some s ∧ n = i + 1 ∧ s.events[i]? = some (event, values)

/-- So many events were published, and this is what the object is. -/
def Ends (ss : Stories) (h : Handle) (n : Nat) (o : SharedObject) : Prop :=
  ∃ s, ss[h.place]? = some s ∧ s.events.length = n ∧ s.valuesAfter n = some o.values ∧
    o = { s.object with values := o.values }

/-- What was told is told still, and no story is shorter. -/
structure Grow (ss after : Stories) : Prop where
  tells : ∀ h n o, ss.Tells h n o → after.Tells h n o
  reports : ∀ h n event, ss.Reports h n event → after.Reports h n event
  longer : ∀ s ∈ ss, ∃ s' ∈ after, s.events.length ≤ s'.events.length

theorem Grow.refl (ss : Stories) : ss.Grow ss :=
  ⟨fun _ _ _ => id, fun _ _ _ => id, fun s mem => ⟨s, mem, Nat.le_refl _⟩⟩

theorem Grow.trans {between after : Stories} (first : ss.Grow between)
    (second : between.Grow after) : ss.Grow after where
  tells := fun h n o => second.tells h n o ∘ first.tells h n o
  reports := fun h n event => second.reports h n event ∘ first.reports h n event
  longer := fun s mem => by
    obtain ⟨s', mem', le⟩ := first.longer s mem
    obtain ⟨s'', mem'', le'⟩ := second.longer s' mem'
    exact ⟨s'', mem'', Nat.le_trans le le'⟩

theorem Grow.shorter {after : Stories} (grow : ss.Grow after) {most : Nat}
    (short : ∀ s ∈ after, s.events.length < most) : ∀ s ∈ ss, s.events.length < most := by
  intro s mem
  obtain ⟨s', mem', le⟩ := grow.longer s mem
  exact Nat.lt_of_le_of_lt le (short s' mem')

theorem Ends.tells (ends : ss.Ends h n o) : ss.Tells h n o := by
  obtain ⟨s, at_, _, told, same⟩ := ends
  exact ⟨s, at_, told, same⟩

theorem Tells.id_eq {m : Nat} {p : SharedObject} (tells : ss.Tells h n o) (also : ss.Tells h m p) :
    o.id = p.id := by
  obtain ⟨s, at_, _, same⟩ := tells
  obtain ⟨s', at', _, same'⟩ := also
  cases at_.symm.trans at'
  rw [same, same']

theorem Tells.unique {p : SharedObject} (tells : ss.Tells h n o) (also : ss.Tells h n p) :
    o = p := by
  obtain ⟨s, at_, told, same⟩ := tells
  obtain ⟨s', at', told', same'⟩ := also
  cases at_.symm.trans at'
  have values : o.values = p.values := Option.some.inj (told.symm.trans told')
  rw [same, same', values]

section Validity

variable (valid : ∀ s ∈ ss, s.Valid c)
include valid

theorem Tells.step (tells : ss.Tells h n o) (reports : ss.Reports h (n + 1) event) :
    ∃ after, o.apply event = .ok after ∧ ss.Tells h (n + 1) after := by
  obtain ⟨s, at_, told, same⟩ := tells
  obtain ⟨s', i, values, at', place, found⟩ := reports
  cases at_.symm.trans at'
  obtain rfl : n = i := by omega
  have story := valid s (List.mem_of_getElem? at_)
  obtain ⟨before, told', applied⟩ := story.unfolds n event values found
  cases told.symm.trans told'
  rw [same]
  exact ⟨_, applied, s, at_, by simp [Story.valuesAfter, found], rfl⟩

theorem Reports.wellKeyed (reports : ss.Reports h n event) : event.WellKeyed := by
  obtain ⟨s, i, values, at_, _, found⟩ := reports
  exact (valid s (List.mem_of_getElem? at_)).carried _ (List.mem_of_getElem? found)

theorem Tells.wellKeyed (tells : ss.Tells h n o) : ∀ v ∈ o.values, v.WellKeyed := by
  obtain ⟨s, at_, told, _⟩ := tells
  exact (valid s (List.mem_of_getElem? at_)).keyed n _ told

theorem Tells.ofSnapshot (reachable : c.Reachable) (tells : ss.Tells h n o) {body : Octets}
    (written : o.snapshot c = .ok body) : SharedObject.ofSnapshot c o.id body = .ok o := by
  obtain ⟨s, at_, told, same⟩ := tells
  have story := valid s (List.mem_of_getElem? at_)
  have type : o.type = s.object.type := by rw [same]
  rw [SharedObject.ofSnapshot_snapshot reachable o.id (by rw [type]; exact story.known)
    (by rw [type]; exact story.distributed) (story.keyed n _ told) written]
  have live : o.stage = .live := by rw [same]; exact story.live
  have quiet : o.listeners = [] := by rw [same]; exact story.quiet
  rw [← live, ← quiet]

theorem Tells.replay {items : List (Seq × Event)} (tells : ss.Tells h n o)
    (reports : ∀ i item, items[i]? = some item → ss.Reports h (n + 1 + i) item.2) :
    ss.Tells h (n + items.length) (o.replay items).object ∧ (o.replay items).rejected = [] := by
  induction items generalizing n o with
  | nil => exact ⟨tells, rfl⟩
  | cons item items ih =>
    obtain ⟨seq, event⟩ := item
    -- The object that the first event leaves stands one further on in the same story.
    obtain ⟨after, applied, there⟩ := tells.step valid (reports 0 _ rfl)
    obtain ⟨final, kept⟩ := ih there fun i item at_ => by
      have := reports (i + 1) item (by simpa using at_)
      rwa [show n + 1 + (i + 1) = n + 1 + 1 + i by omega] at this
    simp only [SharedObject.replay, applied, List.length_cons]
    refine ⟨?_, kept⟩
    rwa [show n + (items.length + 1) = n + 1 + items.length by omega]

end Validity

def adding (ss : Stories) (h : Handle) (event : Event) (values : List Value) : Stories :=
  ss.modify h.place (·.add event values)

theorem getElem?_adding (ss : Stories) (h : Handle) (event : Event) (values : List Value)
    (place : Nat) : (ss.adding h event values)[place]? =
      (ss[place]?).map fun s => if h.place = place then s.add event values else s := by
  rw [adding, List.getElem?_modify]
  rfl

theorem grow_adding (ss : Stories) (h : Handle) (event : Event) (values : List Value) :
    Grow ss (ss.adding h event values) := by
  refine ⟨?_, ?_, ?_⟩
  · intro h' n o ⟨s, at_, told, same⟩
    refine ⟨_, by rw [getElem?_adding, at_]; rfl, ?_, ?_⟩
    · dsimp only
      split
      · exact Story.valuesAfter_add told _ _
      · exact told
    · dsimp only
      split <;> exact same
  · intro h' n other ⟨s, i, found, at_, place, at'⟩
    refine ⟨_, i, found, by rw [getElem?_adding, at_]; rfl, place, ?_⟩
    dsimp only
    split
    · rw [Story.add, List.getElem?_append_left (List.getElem?_eq_some_iff.mp at').1, at']
    · exact at'
  · intro s mem
    obtain ⟨place, at_⟩ := List.mem_iff_getElem?.mp mem
    refine ⟨_, List.mem_of_getElem? (by rw [getElem?_adding, at_]; rfl), ?_⟩
    split <;> simp [Story.add]

theorem grow_append (ss more : Stories) : Grow ss (ss ++ more) := by
  have still {place : Nat} {s : Story} (at_ : ss[place]? = some s) :
      (ss ++ more)[place]? = some s :=
    (List.getElem?_append_left (List.getElem?_eq_some_iff.mp at_).1).trans at_
  exact ⟨fun _ _ _ ⟨s, at_, rest⟩ => ⟨s, still at_, rest⟩,
    fun _ _ _ ⟨s, i, values, at_, rest⟩ => ⟨s, i, values, still at_, rest⟩,
    fun s mem => ⟨s, List.mem_append_left _ mem, Nat.le_refl _⟩⟩

theorem valid_adding (valid : ∀ s ∈ ss, s.Valid c) (ends : ss.Ends h n o)
    (applied : o.apply event = .ok after) (keyed : event.WellKeyed) :
    ∀ s ∈ ss.adding h event after.values, s.Valid c := by
  intro s mem
  obtain ⟨place, at_⟩ := List.mem_iff_getElem?.mp mem
  rw [getElem?_adding] at at_
  obtain ⟨old, found, rfl⟩ := Option.map_eq_some_iff.mp at_
  have before := valid old (List.mem_of_getElem? found)
  split
  · rename_i here
    obtain ⟨s', at', rfl, told, same⟩ := ends
    rw [here] at at'
    cases found.symm.trans at'
    rw [same] at applied
    exact before.add told applied keyed
  · exact before

theorem Ends.adding (ends : ss.Ends h n o) (applied : o.apply event = .ok after) :
    (ss.adding h event after.values).Ends h (n + 1) after ∧
      (ss.adding h event after.values).Reports h (n + 1) event := by
  obtain ⟨s, at_, rfl, told, same⟩ := ends
  have there : (ss.adding h event after.values)[h.place]? = some (s.add event after.values) := by
    rw [getElem?_adding, at_]
    simp
  refine ⟨⟨_, there, by simp [Story.add], Story.valuesAfter_length_add s event _, ?_⟩,
    ⟨_, _, after.values, there, rfl, by simp [Story.add]⟩⟩
  rw [SharedObject.apply_eq applied, same]
  rfl

theorem Ends.adding_other {other : Handle} (ends : ss.Ends h n o) (different : other ≠ h)
    (event : Event) (values : List Value) : (ss.adding other event values).Ends h n o := by
  obtain ⟨s, at_, rest⟩ := ends
  have : other.place ≠ h.place := fun same => different (by cases other; cases h; simp_all)
  exact ⟨s, by rw [getElem?_adding, at_]; simp [this], rest⟩

theorem Ends.append (ends : ss.Ends h n o) (more : Stories) : (ss ++ more).Ends h n o := by
  obtain ⟨s, at_, rest⟩ := ends
  exact ⟨s, (List.getElem?_append_left (List.getElem?_eq_some_iff.mp at_).1).trans at_, rest⟩

theorem ends_append (ss : Stories) (o : SharedObject) :
    Ends (ss ++ [⟨o, []⟩]) ⟨ss.length⟩ 0 o := ⟨⟨o, []⟩, by simp, rfl, rfl, rfl⟩

end Stories

end SharedObjects
