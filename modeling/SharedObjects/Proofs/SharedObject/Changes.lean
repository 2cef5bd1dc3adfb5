import SharedObjects.Proofs.Members
import SharedObjects.SharedObject
import SharedObjects.Proofs.Wire.Spelling
set_option autoImplicit false

namespace SharedObjects

def Action.values : Action → List Value
  | fieldSet v | elementAdd _ v | elementUpdate _ v | listSet _ v => [v]
  | elementRemove _ => []
  | message _ arguments => arguments

def Action.keys : Action → List Key
  | elementAdd k _ | elementUpdate k _ | elementRemove k => [k]
  | _ => []

theorem Entries.mem_of_mem_put {κ ν : Type} [DecidableEq κ] {k : κ} {v : ν} {es : Entries κ ν}
    {e : κ × ν} (mem : e ∈ put k v es) : e ∈ es ∨ e = (k, v) := by
  induction es with
  | nil => exact .inr (by simpa [put] using mem)
  | cons first es ih =>
    by_cases same : first.1 = k
    · simp only [put, same, if_true, List.mem_cons] at mem
      exact mem.elim .inr fun later => .inl (by simp [later])
    · simp only [put, same, if_false, List.mem_cons] at mem
      rcases mem with rfl | later
      · exact .inl (by simp)
      · exact (ih later).imp (by simp [·]) id

namespace Members

variable {es after : Members} {change : Change} {e : Key × Value}

theorem mem_of_apply (applied : apply change es = .ok after) (mem : e ∈ after) :
    e ∈ es ∨ e.1 ∈ (Action.ofChange change).keys ∧ e.2 ∈ (Action.ofChange change).values := by
  cases change with
  | added k v =>
    simp only [apply, add] at applied
    split at applied <;> cases applied
    simp only [List.mem_append, List.mem_singleton] at mem
    exact mem.imp id fun same => by simp [same, Action.ofChange, Action.keys, Action.values]
  | removed k =>
    simp only [apply, remove] at applied
    split at applied <;> cases applied
    exact .inl (List.mem_of_mem_filter mem)
  | updated k v =>
    simp only [apply, update] at applied
    split at applied <;> cases applied
    exact (Entries.mem_of_mem_put mem).imp id fun same => by
      simp [same, Action.ofChange, Action.keys, Action.values]

end Members

theorem SharedObject.changeSet_eq_ok_iff {index : UInt16} {declared : FieldType} {held v : Value}
    {change : Change} : changeSet index declared held change = .ok v ↔
    declared = .set ∧ ∃ members after, held = .set members ∧
      Members.apply change members = .ok after ∧ v = .set after := by
  unfold changeSet
  split
  · simp_all
  · split
    · rename_i members
      cases applied : Members.apply change members with
      | error fault => simp [Except.map, applied]
      | ok after => simp_all [Except.map, eq_comm (b := v)]
    · simp_all

/-- How an action turns what a field declared so holds into something else. -/
inductive Revises (declared : FieldType) : Value → Action → Value → Prop
  | replaced {held v : Value} : declared.accepts v = true → Revises declared held (.fieldSet v) v
  | changed {change : Change} {members after : Members} : declared = .set →
    Members.apply change members = .ok after →
    Revises declared (.set members) (.ofChange change) (.set after)
  | placed {position : UInt32} {items : List Value} {v : Value} : declared = .list →
    Revises declared (.list items) (.listSet position v) (.list (items.set position.toNat v))
  | heard {held : Value} {name : String} {arguments : List Value} :
    Revises declared held (.message name arguments) held

namespace Revises

variable {declared : FieldType} {held v : Value} {action : Action}

theorem of_changeSet {index : UInt16} (change : Change)
    (changed : SharedObject.changeSet index declared held change = .ok v) :
    Revises declared held (.ofChange change) v := by
  obtain ⟨set, members, after, rfl, applied, rfl⟩ := SharedObject.changeSet_eq_ok_iff.mp changed
  exact .changed set applied

theorem of_revised {index : UInt16}
    (revised : SharedObject.revised index declared held action = .ok v) :
    Revises declared held action v := by
  cases action with
  | fieldSet w =>
    simp only [SharedObject.revised] at revised
    split at revised <;> cases revised
    exact .replaced ‹_›
  | elementAdd k w => exact of_changeSet (.added k w) revised
  | elementRemove k => exact of_changeSet (.removed k) revised
  | elementUpdate k w => exact of_changeSet (.updated k w) revised
  | listSet position w =>
    simp only [SharedObject.revised, SharedObject.replaceItem] at revised
    split at revised
    · cases revised
    · rename_i list
      split at revised
      · split at revised <;> cases revised
        exact .placed (by simpa using list)
      · cases revised
  | message name arguments =>
    cases revised
    exact .heard

theorem accepts (revises : Revises declared held action v)
    (before : declared.accepts held = true) : declared.accepts v = true := by
  cases revises with
  | replaced accepted => exact accepted
  | changed set _ => subst set; rfl
  | placed list => subst list; rfl
  | heard => exact before

theorem mem_contents (revises : Revises declared held action v) {w : Value} (mem : w ∈ v.contents) :
    w ∈ held.contents ∨ w ∈ action.values ∨ v ∈ action.values := by
  cases revises with
  | replaced _ => exact .inr (.inr (by simp [Action.values]))
  | changed _ applied =>
    obtain ⟨e, within, rfl⟩ := List.mem_map.mp mem
    exact (Members.mem_of_apply applied within).imp (List.mem_map_of_mem ·) fun came => .inl came.2
  | placed _ =>
    exact (List.mem_or_eq_of_mem_set mem).imp id fun same => by simp [Action.values, same]
  | heard => exact .inl mem

theorem wellKeyed (revises : Revises declared held action v) (before : held.WellKeyed)
    (carried : ∀ w ∈ action.values, w.WellKeyed) : v.WellKeyed := by
  by_cases came : v ∈ action.values
  · exact carried v came
  · refine Value.wellKeyed_iff.mpr ⟨?_, fun w mem => ?_⟩
    · cases revises with
      | replaced _ => exact absurd (by simp [Action.values]) came
      | changed _ applied =>
        exact Members.distinct_of_apply (Value.wellKeyed_iff.mp before).1 applied
      | placed _ => trivial
      | heard => exact (Value.wellKeyed_iff.mp before).1
    · rcases revises.mem_contents mem with old | new | whole
      · exact (Value.wellKeyed_iff.mp before).2 w old
      · exact carried w new
      · exact absurd whole came

end Revises

namespace SharedObject

variable {o after : SharedObject} {e : Event}

theorem apply_ok (applied : o.apply e = .ok after) : o.stage = .live ∧ e.object = o.id ∧
    (after = o ∨ ∃ f held v, o.type.field? e.field = some f ∧ o.get? e.field = some held ∧
      Revises f.type held e.action v ∧ after = o.put e.field v) := by
  unfold apply at applied
  split at applied
  · cases applied
  · rename_i allowed
    split at applied
    · cases applied
    · rename_i named
      have live : o.stage = .live := by simpa [Stage.allowsEvents] using allowed
      refine ⟨live, by simpa using named, ?_⟩
      split at applied
      · cases applied
        exact .inl rfl
      · refine .inr ?_
        cases declared : o.type.field? e.field with
        | none => simp [slot, declared] at applied
        | some f =>
          cases holds : o.get? e.field with
          | none => simp [slot, declared, holds] at applied
          | some held =>
            cases revised : revised e.field f.type held e.action with
            | error fault => simp [slot, declared, holds, revised, Except.map] at applied
            | ok v =>
              refine ⟨f, held, v, rfl, rfl, .of_revised revised, ?_⟩
              simpa [slot, declared, holds, revised, Except.map] using applied.symm

theorem apply_eq (applied : o.apply e = .ok after) : after = { o with values := after.values } := by
  obtain ⟨_, _, rfl | ⟨_, _, _, _, _, _, rfl⟩⟩ := apply_ok applied <;> rfl

theorem type_of_apply (applied : o.apply e = .ok after) : after.type = o.type := by
  rw [apply_eq applied]

theorem stage_of_apply (applied : o.apply e = .ok after) : after.stage = o.stage := by
  rw [apply_eq applied]

theorem put_put (o : SharedObject) (index : UInt16) (v w : Value) :
    (o.put index v).put index w = o.put index w := by
  simp [put, List.set_set]

theorem get?_put {index : UInt16} (within : index.toNat < o.values.length) (v : Value) :
    (o.put index v).get? index = some v :=
  List.getElem?_set_self within

theorem put_of_get? {index : UInt16} {v : Value} (held : o.get? index = some v) :
    o.put index v = o := by
  obtain ⟨_, rfl⟩ := List.getElem?_eq_some_iff.mp held
  simp [put]

theorem accepted_put {f : Field} {v : Value} {index : UInt16}
    (accepted : Value.Accepted o.values o.type.fields) (declared : o.type.field? index = some f)
    (fits : f.type.accepts v = true) :
    Value.Accepted (o.put index v).values (o.put index v).type.fields := by
  unfold Value.Accepted ResolvedType.field? at *
  simp only [put]
  generalize o.values = values, o.type.fields = fields, index.toNat = place at *
  induction accepted generalizing place with
  | nil => exact .nil
  | cons here rest ih =>
    cases place with
    | zero =>
      obtain rfl : _ = f := by simpa using declared
      exact .cons fits rest
    | succ place => exact .cons here (ih place (by simpa using declared))

/-- What is asked of every field holds after an event if it did before and the event's field takes
what it asks. -/
theorem forall_values_of_apply {P : Value → Prop} (applied : o.apply e = .ok after)
    (before : ∀ v ∈ o.values, P v)
    (revises : ∀ (f : Field) held v, P held → Revises f.type held e.action v → P v) :
    ∀ v ∈ after.values, P v := by
  obtain ⟨_, _, rfl | ⟨f, held, v, _, holds, change, rfl⟩⟩ := apply_ok applied
  · exact before
  · intro w mem
    rcases List.mem_or_eq_of_mem_set mem with old | rfl
    · exact before w old
    · exact revises f held w (before held (List.mem_of_getElem? holds)) change

theorem wellKeyed_of_apply (applied : o.apply e = .ok after)
    (before : ∀ v ∈ o.values, v.WellKeyed) (carried : ∀ v ∈ e.action.values, v.WellKeyed) :
    ∀ v ∈ after.values, v.WellKeyed :=
  forall_values_of_apply applied before fun _ _ _ held revises => revises.wellKeyed held carried

theorem accepted_of_apply (applied : o.apply e = .ok after)
    (before : Value.Accepted o.values o.type.fields) :
    Value.Accepted after.values after.type.fields := by
  obtain ⟨_, _, rfl | ⟨f, held, v, declared, holds, change, rfl⟩⟩ := apply_ok applied
  · exact before
  · obtain ⟨_, rfl⟩ := List.getElem?_eq_some_iff.mp declared
    obtain ⟨_, rfl⟩ := List.getElem?_eq_some_iff.mp holds
    exact accepted_put before declared (change.accepts (before.get _ _))

end SharedObject

end SharedObjects
