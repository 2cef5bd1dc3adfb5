import SharedObjects.Proofs.Members
import SharedObjects.Proofs.SharedObject.Operations
set_option autoImplicit false

namespace SharedObjects

namespace Action

def Admitted (declared : FieldType) (held : Value) : Action → Prop
  | fieldSet v => declared.accepts v = true
  | elementAdd k _ =>
    declared = .set ∧ ∃ members, held = .set members ∧ k ∉ Entries.keys members
  | elementRemove k | elementUpdate k _ =>
    declared = .set ∧ ∃ members, held = .set members ∧ k ∈ Entries.keys members
  | listSet position _ =>
    declared = .list ∧ ∃ items, held = .list items ∧ position.toNat < items.length
  | message _ _ => True

/-- What becomes of a value: a new member stands behind all others, a member that is removed leaves
the others in their order, and what is replaced stands where it stood. -/
inductive Makes : Value → Action → Value → Prop
  | written {held v : Value} : Makes held (fieldSet v) v
  | appended {members : Members} {k : Key} {v : Value} :
    Makes (.set members) (elementAdd k v) (.set (members ++ [(k, v)]))
  | removed {before behind : Members} {k : Key} {v : Value} :
    Makes (.set (before ++ (k, v) :: behind)) (elementRemove k) (.set (before ++ behind))
  | updated {before behind : Members} {k : Key} {old v : Value} :
    Makes (.set (before ++ (k, old) :: behind)) (elementUpdate k v)
      (.set (before ++ (k, v) :: behind))
  | placed {before behind : List Value} {old v : Value} {position : UInt32} :
    before.length = position.toNat →
    Makes (.list (before ++ old :: behind)) (listSet position v) (.list (before ++ v :: behind))
  | heard {held : Value} {name : String} {arguments : List Value} :
    Makes held (message name arguments) held

end Action

namespace SharedObject

variable {index : UInt16} {declared : FieldType} {held v : Value} {action : Action}

theorem replaceItem_eq_ok_iff {position : UInt32} {w : Value} :
    replaceItem index declared held position w = .ok v ↔
    declared = .list ∧ ∃ before old behind, held = .list (before ++ old :: behind) ∧
      before.length = position.toNat ∧ v = .list (before ++ w :: behind) := by
  unfold replaceItem
  constructor
  · intro replaced
    split at replaced
    · cases replaced
    rename_i list
    split at replaced
    · rename_i items
      split at replaced <;> cases replaced
      rename_i inside
      refine ⟨by simpa using list, items.take position.toNat, items[position.toNat],
        items.drop (position.toNat + 1), ?_, List.length_take_of_le (Nat.le_of_lt inside), ?_⟩
      · rw [List.getElem_cons_drop, List.take_append_drop]
      · rw [List.set_eq_take_append_cons_drop, if_pos inside]
    · cases replaced
  · rintro ⟨rfl, before, old, behind, rfl, place, rfl⟩
    simp [← place]

theorem revised_eq_ok_iff (keyed : held.KeysDistinct) :
    revised index declared held action = .ok v ↔
      action.Admitted declared held ∧ action.Makes held v := by
  cases action with
  | fieldSet w =>
    rw [revised]
    constructor
    · intro written
      split at written <;> cases written
      exact ⟨‹_›, .written⟩
    · rintro ⟨accepted, ⟨⟩⟩
      exact if_pos accepted
  | elementAdd k w =>
    rw [revised, changeSet_eq_ok_iff]
    constructor
    · rintro ⟨rfl, members, after, rfl, added, rfl⟩
      obtain ⟨absent, rfl⟩ := Members.add_eq_ok_iff.mp added
      exact ⟨⟨rfl, members, rfl, absent⟩, .appended⟩
    · rintro ⟨⟨rfl, members, rfl, absent⟩, ⟨⟩⟩
      exact ⟨rfl, members, _, rfl, Members.add_eq_ok_iff.mpr ⟨absent, rfl⟩, rfl⟩
  | elementRemove k =>
    rw [revised, changeSet_eq_ok_iff]
    constructor
    · rintro ⟨rfl, members, after, rfl, removed, rfl⟩
      obtain ⟨before, w, behind, rfl, rfl⟩ := (Members.remove_eq_ok_iff keyed).mp removed
      exact ⟨⟨rfl, _, rfl, by simp [Entries.keys]⟩, .removed⟩
    · rintro ⟨⟨rfl, -⟩, ⟨⟩⟩
      exact ⟨rfl, _, _, rfl, (Members.remove_eq_ok_iff keyed).mpr ⟨_, _, _, rfl, rfl⟩, rfl⟩
  | elementUpdate k w =>
    rw [revised, changeSet_eq_ok_iff]
    constructor
    · rintro ⟨rfl, members, after, rfl, updated, rfl⟩
      obtain ⟨before, old, behind, rfl, rfl⟩ := (Members.update_eq_ok_iff keyed).mp updated
      exact ⟨⟨rfl, _, rfl, by simp [Entries.keys]⟩, .updated⟩
    · rintro ⟨⟨rfl, -⟩, ⟨⟩⟩
      exact ⟨rfl, _, _, rfl, (Members.update_eq_ok_iff keyed).mpr ⟨_, _, _, rfl, rfl⟩, rfl⟩
  | listSet position w =>
    rw [revised, replaceItem_eq_ok_iff]
    constructor
    · rintro ⟨rfl, before, old, behind, rfl, place, rfl⟩
      exact ⟨⟨rfl, _, rfl, by simp [← place]⟩, .placed place⟩
    · rintro ⟨⟨rfl, -⟩, ⟨⟩⟩
      exact ⟨rfl, _, _, _, rfl, ‹_›, rfl⟩
  | message name arguments =>
    rw [revised]
    constructor
    · rintro ⟨⟩
      exact ⟨trivial, .heard⟩
    · rintro ⟨-, ⟨⟩⟩
      rfl

end SharedObject

theorem Action.Admitted.makes {declared : FieldType} {held : Value} {action : Action}
    (admitted : action.Admitted declared held) : ∃ v, action.Makes held v := by
  cases action with
  | fieldSet w => exact ⟨w, .written⟩
  | elementAdd k w =>
    obtain ⟨-, members, rfl, -⟩ := admitted
    exact ⟨_, .appended⟩
  | elementRemove k =>
    obtain ⟨-, members, rfl, present⟩ := admitted
    obtain ⟨before, w, behind, rfl⟩ := Entries.split_of_mem_keys present
    exact ⟨_, .removed⟩
  | elementUpdate k w =>
    obtain ⟨-, members, rfl, present⟩ := admitted
    obtain ⟨before, old, behind, rfl⟩ := Entries.split_of_mem_keys present
    exact ⟨_, .updated⟩
  | listSet position w =>
    obtain ⟨-, items, rfl, inside⟩ := admitted
    have split : items = items.take position.toNat ++
        items[position.toNat] :: items.drop (position.toNat + 1) := by simp
    rw [split]
    exact ⟨_, .placed (List.length_take_of_le (Nat.le_of_lt inside))⟩
  | message name arguments => exact ⟨held, .heard⟩

theorem Action.Admitted.unique {declared : FieldType} {held v w : Value} {action : Action}
    (admitted : action.Admitted declared held) (keyed : held.KeysDistinct)
    (makes : action.Makes held v) (other : action.Makes held w) : v = w := by
  have first : SharedObject.revised 0 declared held action = .ok v :=
    (SharedObject.revised_eq_ok_iff keyed).mpr ⟨admitted, makes⟩
  have second : SharedObject.revised 0 declared held action = .ok w :=
    (SharedObject.revised_eq_ok_iff keyed).mpr ⟨admitted, other⟩
  exact Except.ok.inj (first.symm.trans second)

namespace SharedObject

variable {o after : SharedObject} {e : Event}

theorem isTransient_iff : e.isTransient = true ↔
    ∃ name arguments, e.action = .message name arguments := by
  unfold Event.isTransient Event.kind
  cases action : e.action <;> simp [Action.kind, EventKind.isTransient]

/-- Would a live object take this event? A message names no field. -/
def Admits (o : SharedObject) (e : Event) : Prop :=
  (∃ name arguments, e.action = .message name arguments) ∨
  ∃ f held, o.type.field? e.field = some f ∧ o.get? e.field = some held ∧
    e.action.Admitted f.type held

/-- An object after an event: the field it names holds what the event makes of it, and there is no
other difference. -/
structure Applied (o : SharedObject) (e : Event) (after : SharedObject) : Prop where
  id : after.id = o.id
  stage : after.stage = o.stage
  type : after.type = o.type
  listeners : after.listeners = o.listeners
  length : after.values.length = o.values.length
  others : ∀ i, i ≠ e.field.toNat → after.values[i]? = o.values[i]?
  made : ∀ held, o.get? e.field = some held →
    ∀ v, after.get? e.field = some v ↔ e.action.Makes held v

theorem Applied.same (e : Event) (named : ∃ name arguments, e.action = .message name arguments) :
    o.Applied e o where
  id := rfl
  stage := rfl
  type := rfl
  listeners := rfl
  length := rfl
  others := fun _ _ => rfl
  made := by
    obtain ⟨name, arguments, action⟩ := named
    intro held there v
    rw [there, action, Option.some.injEq]
    constructor
    · rintro rfl
      exact .heard
    · rintro ⟨⟩
      rfl

theorem Applied.put {f : Field} {held v : Value} (there : o.get? e.field = some held)
    (keyed : held.KeysDistinct) (admitted : e.action.Admitted f.type held)
    (makes : e.action.Makes held v) : o.Applied e (o.put e.field v) where
  id := rfl
  stage := rfl
  type := rfl
  listeners := rfl
  length := List.length_set
  others := fun i other => List.getElem?_set_ne (Ne.symm other)
  made := by
    intro same there' w
    obtain rfl : held = same := Option.some.inj (there.symm.trans there')
    obtain ⟨inside, -⟩ := List.getElem?_eq_some_iff.mp there
    rw [get?_put inside, Option.some.injEq]
    exact ⟨fun same => same ▸ makes, fun other => admitted.unique keyed makes other⟩

theorem apply_of_not_live (stage : o.stage ≠ .live) :
    o.apply e = .error (.notLive o.id o.stage) := by
  simp [apply, Stage.allowsEvents, stage]

theorem apply_of_other (live : o.stage = .live) (other : e.object ≠ o.id) :
    o.apply e = .error (.unknownObject e.object) := by
  simp [apply, Stage.allowsEvents, live, other]

theorem apply_message (live : o.stage = .live) (named : e.object = o.id)
    (heard : e.isTransient = true) : o.apply e = .ok o := by
  simp [apply, live, named, heard, Stage.allowsEvents]

theorem apply_slot (live : o.stage = .live) (named : e.object = o.id)
    (lasting : e.isTransient = false) {f : Field} {held : Value}
    (declared : o.type.field? e.field = some f) (there : o.get? e.field = some held) :
    o.apply e = (revised e.field f.type held e.action).map (o.put e.field) := by
  simp [apply, live, named, lasting, Stage.allowsEvents, slot, declared, there]

theorem apply_no_slot (live : o.stage = .live) (named : e.object = o.id)
    (lasting : e.isTransient = false) {cause : FieldFault}
    (missing : o.slot e.field = .error cause) :
    o.apply e = .error (.field e.field cause) := by
  simp [apply, live, named, lasting, Stage.allowsEvents, missing]

theorem Whole.keysDistinct (whole : o.Whole) {index : UInt16} {held : Value}
    (there : o.get? index = some held) : held.KeysDistinct :=
  (Value.wellKeyed_iff.mp (whole.keyed held (List.mem_of_getElem? there))).1

theorem Admits.apply (whole : o.Whole) (live : o.stage = .live) (named : e.object = o.id)
    (admits : o.Admits e) : ∃ after, o.apply e = .ok after ∧ o.Applied e after := by
  cases heard : e.isTransient with
  | true => exact ⟨o, apply_message live named heard, .same e (isTransient_iff.mp heard)⟩
  | false =>
    obtain message | ⟨f, held, declared, there, admitted⟩ := admits
    · simp [isTransient_iff.mpr message] at heard
    · have keyed := whole.keysDistinct there
      obtain ⟨v, makes⟩ := admitted.makes
      have revised : revised e.field f.type held e.action = .ok v :=
        (revised_eq_ok_iff keyed).mpr ⟨admitted, makes⟩
      refine ⟨o.put e.field v, ?_, .put there keyed admitted makes⟩
      rw [apply_slot live named heard declared there, revised]
      rfl

theorem admits_of_apply (whole : o.Whole) (applied : o.apply e = .ok after) : o.Admits e := by
  obtain ⟨live, named, -⟩ := apply_ok applied
  cases heard : e.isTransient with
  | true => exact .inl (isTransient_iff.mp heard)
  | false =>
    cases found : o.slot e.field with
    | error cause =>
      rw [apply_no_slot live named heard found] at applied
      cases applied
    | ok both =>
      obtain ⟨f, declared, -, there⟩ := slot_ok found
      rw [apply_slot live named heard declared there] at applied
      cases revised : revised e.field f.type both.2 e.action with
      | error fault =>
        rw [revised] at applied
        cases applied
      | ok v =>
        have admitted := ((revised_eq_ok_iff (whole.keysDistinct there)).mp revised).1
        exact .inr ⟨f, both.2, declared, there, admitted⟩

end SharedObject

namespace Watched

open SharedObject (Reachable)

/-- Whatever has become of an object, it has a value for every field of its type; and an event it is
asked to apply is refused for the stage the object is in, else for naming another object, else
exactly if it is not admitted. What is refused leaves everything as it was. What is applied changes
the field the event names, as the event says, and is told to every listener once, in the order they
came, who find the object changed. -/
theorem applied_exactly (w : Watched) (reachable : w.object.Reachable) (e : Event) :
    w.object.values.length = w.object.type.fields.length ∧
    (w.object.stage ≠ .live →
      perform (.apply e) w = .error (.notLive w.object.id w.object.stage) w) ∧
    (w.object.stage = .live → e.object ≠ w.object.id →
      perform (.apply e) w = .error (.unknownObject e.object) w) ∧
    (w.object.stage = .live → e.object = w.object.id → ¬w.object.Admits e →
      ∃ fault, perform (.apply e) w = .error fault w) ∧
    (w.object.stage = .live → e.object = w.object.id → w.object.Admits e →
      ∃ after, w.object.Applied e after ∧
        perform (.apply e) w = .ok () ⟨after, w.heard ++ w.object.listeners.map fun listener =>
          ⟨listener, w.object.id, e, after.get? e.field⟩⟩) := by
  have whole := reachable.whole
  refine ⟨whole.accepted.length_eq, fun stage => ?_, fun live other => ?_,
    fun live named refused => ?_, fun live named admits => ?_⟩
  · exact apply_error (SharedObject.apply_of_not_live stage)
  · exact apply_error (SharedObject.apply_of_other live other)
  · cases applied : w.object.apply e with
    | error fault => exact ⟨fault, apply_error applied⟩
    | ok after => exact absurd (SharedObject.admits_of_apply whole applied) refused
  · obtain ⟨after, applied, changed⟩ := admits.apply whole live named
    refine ⟨after, changed, (apply_ok applied).trans ?_⟩
    rw [SharedObject.notices, changed.listeners, changed.id]

end Watched

def rosterType : ResolvedType :=
  ⟨"Roster", .distributed, [rootName], [⟨"title", .text⟩, ⟨"members", .set⟩]⟩

def roster : SharedObject :=
  ⟨⟨5⟩, .live, rosterType,
    [.null, .set [(.number 1, .null), (.number 2, .bool true), (.number 3, .null)]],
    ["first", "second"]⟩

theorem reachable_roster : roster.Reachable := by
  let blank : SharedObject := ⟨.none, .unregistered, rosterType, [.null, .set []], []⟩
  let filled : SharedObject := { blank with values := roster.values }
  let heard : SharedObject := { filled with listeners := ["first"] }
  let heardTwice : SharedObject := { filled with listeners := ["first", "second"] }
  have made : SharedObject.ofType rosterType = .ok blank := rfl
  have written : Watched.perform (.set 1 (.set [(.number 1, .null), (.number 2, .bool true),
      (.number 3, .null)])) ⟨blank, []⟩ = .ok () ⟨filled, []⟩ := rfl
  have first : Watched.perform (.listen "first") ⟨filled, []⟩ = .ok () ⟨heard, []⟩ := rfl
  have second : Watched.perform (.listen "second") ⟨heard, []⟩ = .ok () ⟨heardTwice, []⟩ := rfl
  have live : Watched.perform (.goLive ⟨5⟩) ⟨heardTwice, []⟩ = .ok () ⟨roster, []⟩ := rfl
  have keyed : ObjectOperation.Proper (.set 1 (.set [(.number 1, .null), (.number 2, .bool true),
      (.number 3, .null)])) := by
    unfold ObjectOperation.Proper
    decide
  have listening (listener : String) : ObjectOperation.Proper (.listen listener) := trivial
  have going : ObjectOperation.Proper (.goLive ⟨5⟩) := trivial
  have start : SharedObject.Reachable (Watched.mk blank []).object := .ofType made
  have begun := (start.perform keyed written).perform (listening "first") first
  exact (begun.perform (listening "second") second).perform going live

def leaves : Event := ⟨⟨5⟩, 1, .elementRemove (.number 2)⟩

theorem Watched.applied_exactly_roster : roster.Reachable ∧ ∃ after, roster.Applied leaves after ∧
    after.get? 1 = some (.set [(.number 1, .null), (.number 3, .null)]) ∧
    perform (.apply leaves) ⟨roster, []⟩ = .ok () ⟨after,
      [⟨"first", ⟨5⟩, leaves, after.get? 1⟩, ⟨"second", ⟨5⟩, leaves, after.get? 1⟩]⟩ := by
  obtain ⟨-, -, -, -, applies⟩ := Watched.applied_exactly ⟨roster, []⟩ reachable_roster leaves
  have admits : roster.Admits leaves :=
    .inr ⟨_, _, rfl, rfl, rfl, _, rfl, by decide⟩
  obtain ⟨after, applied, done⟩ := applies rfl rfl admits
  have made : leaves.action.Makes
      (.set ([(.number 1, .null)] ++ (.number 2, .bool true) :: [(.number 3, .null)]))
      (.set ([(.number 1, .null)] ++ [(.number 3, .null)])) := .removed
  exact ⟨reachable_roster, after, applied, (applied.made _ rfl _).mpr made, done⟩

end SharedObjects
