import SharedObjects.Proofs.SharedObject.Applying
import SharedObjects.Proofs.SharedObject.Discipline
set_option autoImplicit false

namespace SharedObjects

def Action.suits : Action → FieldType → Bool
  | fieldSet v, declared => declared.accepts v
  | elementAdd _ _, declared | elementRemove _, declared | elementUpdate _ _, declared =>
    declared = .set
  | listSet _ _, declared => declared = .list
  | message _ _, _ => false

theorem Revises.suits {declared : FieldType} {held v : Value} {action : Action}
    (revises : Revises declared held action v) : action.suits declared = true ∨ v = held := by
  cases revises with
  | replaced accepted => exact .inl accepted
  | @changed change _ _ set _ =>
    exact .inl (by cases change <;> simp [Action.ofChange, Action.suits, set])
  | placed list => exact .inl (by simp [Action.suits, list])
  | heard => exact .inr rfl

namespace SharedObject

def declared? (o : SharedObject) (index : UInt16) (suited : FieldType → Bool) : Option UInt16 :=
  if (o.type.field? index).any fun f => suited f.type then some index else none

def writePlace? (o : SharedObject) (index : UInt16) (v : Value) : Option UInt16 :=
  if o.stage.allowsDirectWrites then o.declared? index (·.accepts v) else none

end SharedObject

/-- The place among the values that an operation comes to. All that has been asked by then is what
the type declares. -/
def ObjectOperation.place? (o : SharedObject) : ObjectOperation → Option UInt16
  | set index v => o.writePlace? index v
  | setNamed name v => (o.type.fieldIndex? name).bind (o.writePlace? · v)
  | apply e =>
    if o.stage.allowsEvents && e.object = o.id then o.declared? e.field e.action.suits else none
  | _ => none

namespace SharedObject

variable {o after : SharedObject} {op : ObjectOperation} {index : UInt16} {v : Value} {e : Event}

/-- An object made of a type that the caller has, of a type that a catalog has, or from bytes. -/
inductive Made : SharedObject → Prop
  | new {c : Catalog} {name : String} {o : SharedObject} : SharedObject.new c name = .ok o → Made o
  | ofType {type : ResolvedType} {o : SharedObject} : SharedObject.ofType type = .ok o → Made o
  | ofSnapshot {c : Catalog} {id : ObjectId} {bytes : Octets} {o : SharedObject} :
    c.Reachable → SharedObject.ofSnapshot c id bytes = .ok o → Made o

theorem Made.reachable (made : o.Made) : o.Reachable := by
  cases made with
  | @new c name o new =>
    unfold SharedObject.new at new
    split at new
    · exact .ofType new
    · cases new
  | ofType made => exact .ofType made
  | ofSnapshot known read => exact .ofSnapshot known read

/-- What an object holds is what its type declares. -/
structure Conforms (o : SharedObject) : Prop where
  count : o.values.length = o.type.fields.length
  accepted : ∀ (i : Nat) f v, o.type.fields[i]? = some f → o.values[i]? = some v →
    f.type.accepts v = true
  present : ∀ (i : Nat) f v, o.type.fields[i]? = some f → o.values[i]? = some v →
    f.type.isPrimitive = true → v ≠ .null
  sets : ∀ (i : Nat) f v, o.type.fields[i]? = some f → o.values[i]? = some v →
    f.type = .set → v = .null ∨ ∃ members, v = .set members
  distinct : ∀ v ∈ o.values, ∀ members, .set members ∈ v.parts → Entries.Distinct members
  inRange : ∀ op index, ObjectOperation.place? o op = some index → index.toNat < o.values.length

theorem declared?_eq_some_iff {suited : FieldType → Bool} {place : UInt16} :
    o.declared? index suited = some place ↔
      place = index ∧ ∃ f, o.type.field? index = some f ∧ suited f.type = true := by
  unfold declared?
  cases o.type.field? index with
  | none => simp
  | some f => by_cases fits : suited f.type = true <;> simp [fits, eq_comm (b := place)]

theorem writePlace?_eq_some_iff {place : UInt16} :
    o.writePlace? index v = some place ↔ place = index ∧ o.Writable index v := by
  unfold writePlace?
  split
  · rename_i allowed
    have unregistered : o.stage = .unregistered := by simpa [Stage.allowsDirectWrites] using allowed
    rw [declared?_eq_some_iff]
    exact and_congr_right fun _ => ⟨Writable.mk unregistered, Writable.accepted⟩
  · rename_i forbidden
    constructor
    · intro found
      cases found
    · rintro ⟨-, writable⟩
      exact absurd (by rw [writable.unregistered]; rfl) forbidden

theorem field_of_place? {place : UInt16} (comes : op.place? o = some place) :
    ∃ f, o.type.field? place = some f := by
  have written {index : UInt16} {v : Value} (comes : o.writePlace? index v = some place) :
      ∃ f, o.type.field? place = some f := by
    obtain ⟨rfl, writable⟩ := writePlace?_eq_some_iff.mp comes
    exact writable.accepted.imp fun f fits => fits.1
  cases op with
  | set index v => exact written comes
  | setNamed name v =>
    obtain ⟨index, -, comes⟩ := Option.bind_eq_some_iff.mp comes
    exact written comes
  | apply e =>
    simp only [ObjectOperation.place?] at comes
    split at comes
    · obtain ⟨rfl, f, declared, -⟩ := declared?_eq_some_iff.mp comes
      exact ⟨f, declared⟩
    · cases comes
  | _ => cases comes

theorem place?_of_set (written : o.set index v = .ok after) :
    o.writePlace? index v = some index ∧ after = o.put index v :=
  ⟨writePlace?_eq_some_iff.mpr ⟨rfl, writable_of_set written⟩, put_of_set written⟩

theorem place?_of_setNamed {name : String} (written : o.setNamed name v = .ok after) :
    ∃ index, ObjectOperation.place? o (.setNamed name v) = some index ∧ after = o.put index v := by
  unfold setNamed at written
  split at written
  · rename_i index named
    obtain ⟨place, put⟩ := place?_of_set written
    exact ⟨index, by simp [ObjectOperation.place?, named, place], put⟩
  · cases written

theorem place?_of_apply (applied : o.apply e = .ok after) : after.values = o.values ∨
    ∃ v, ObjectOperation.place? o (.apply e) = some e.field ∧ after = o.put e.field v := by
  obtain ⟨live, named, rfl | ⟨f, held, v, declared, holds, revises, rfl⟩⟩ := apply_ok applied
  · exact .inl rfl
  · rcases revises.suits with suits | rfl
    · refine .inr ⟨v, ?_, rfl⟩
      have place : o.declared? e.field e.action.suits = some e.field :=
        declared?_eq_some_iff.mpr ⟨rfl, f, declared, suits⟩
      simp [ObjectOperation.place?, live, named, Stage.allowsEvents, place]
    · exact .inl (congrArg values (put_of_get? holds))

theorem Whole.conforms (whole : o.Whole) : o.Conforms := by
  have count : o.values.length = o.type.fields.length := whole.accepted.length_eq
  have accepted (i : Nat) (f : Field) (v : Value) (declared : o.type.fields[i]? = some f)
      (held : o.values[i]? = some v) : f.type.accepts v = true := by
    obtain ⟨_, rfl⟩ := List.getElem?_eq_some_iff.mp declared
    obtain ⟨_, rfl⟩ := List.getElem?_eq_some_iff.mp held
    exact whole.accepted.get _ _
  refine ⟨count, accepted, fun i f v declared held primitive => ?_,
    fun i f v declared held set => ?_, fun v mem members within => ?_, fun op index comes => ?_⟩
  · rintro rfl
    simpa [FieldType.accepts, Value.type?, primitive] using accepted i f .null declared held
  · have fits := accepted i f v declared held
    cases v <;> simp_all [FieldType.accepts, Value.type?]
  · exact whole.keyed v mem _ within
  · obtain ⟨f, declared⟩ := field_of_place? comes
    obtain ⟨within, -⟩ := List.getElem?_eq_some_iff.mp declared
    exact count ▸ within

theorem Reachable.next {w : Watched} (reachable : w.object.Reachable) (proper : op.Proper) :
    (w.next op).object.Reachable := by
  rcases Watched.perform_cases op w with ⟨fault, refused⟩ | ⟨after, done, -⟩
  · rwa [Watched.next, Attempt.outcome_error refused]
  · rw [Watched.next, Attempt.outcome_ok done]
    exact reachable.perform proper done

theorem Reachable.run {ops : List ObjectOperation} {w : Watched} (reachable : w.object.Reachable)
    (proper : ∀ op ∈ ops, op.Proper) : (Watched.run ops w).object.Reachable := by
  induction ops generalizing w with
  | nil => exact reachable
  | cons op rest ih =>
    exact ih (reachable.next (proper op (by simp))) fun later mem => proper later (by simp [mem])

end SharedObject

namespace Watched

variable {w after : Watched}

theorem made_of_change {f : SharedObject → Except Fault SharedObject}
    (done : change f w = .ok () after) : f w.object = .ok after.object := by
  cases made : f w.object with
  | error fault =>
    rw [change_error made] at done
    cases done
  | ok o =>
    rw [change_ok made] at done
    cases done
    rfl

theorem values_of_perform {op : ObjectOperation} (done : perform op w = .ok () after)
    (other : ∀ c input, op ≠ .readFields c input) :
    after.object.values = w.object.values ∨
    ∃ index v, op.place? w.object = some index ∧ after.object = w.object.put index v := by
  have alters := alters_of_perform done
  cases op with
  | set index v =>
    have written : w.object.set index v = .ok after.object :=
      made_of_change (f := fun o => o.set index v) done
    exact .inr ⟨index, v, SharedObject.place?_of_set written⟩
  | setNamed name v =>
    have written : w.object.setNamed name v = .ok after.object :=
      made_of_change (f := fun o => o.setNamed name v) done
    obtain ⟨index, place⟩ := SharedObject.place?_of_setNamed written
    exact .inr ⟨index, v, place⟩
  | apply e =>
    generalize after.object = o at alters ⊢
    cases alters with
    | applied applied =>
      exact (SharedObject.place?_of_apply applied).imp id fun ⟨v, place⟩ => ⟨e.field, v, place⟩
  | readFields c input => exact absurd rfl (other c input)
  | _ =>
    generalize after.object = o at alters ⊢
    cases alters
    exact .inl rfl

/-- However an object was made and whatever it has been asked since, be it done or refused: it holds
what its type declares. What it is asked next comes to no place beyond its values, and writes at
that place or not at all, unless it reads all values anew. -/
theorem always_conforms (start : SharedObject) (made : start.Made) (heard : List Notice)
    (ops : List ObjectOperation) (proper : ∀ op ∈ ops, op.Proper) :
    let w := run ops ⟨start, heard⟩
    w.object.Conforms ∧
    ∀ op after, perform op w = .ok () after → (∀ c input, op ≠ .readFields c input) →
      after.object.values = w.object.values ∨
      ∃ index v, op.place? w.object = some index ∧ after.object = w.object.put index v := by
  intro w
  have reachable : w.object.Reachable := made.reachable.run proper
  exact ⟨reachable.whole.conforms, fun op after => values_of_perform⟩

end Watched

def rosterLife : List ObjectOperation :=
  [.setNamed "members" (.set [(.number 1, .null)]), .readFields .initial ⟨[0, 1, 0], 0, ∅⟩,
    .goLive ⟨5⟩, .apply ⟨⟨5⟩, 1, .elementAdd (.number 2) .null⟩, .apply ⟨⟨5⟩, 7, .fieldSet .null⟩]

theorem Watched.always_conforms_roster : ∃ start, SharedObject.ofType rosterType = .ok start ∧
    start.Made ∧ (∀ op ∈ rosterLife, op.Proper) ∧
    (run rosterLife ⟨start, []⟩).object.Conforms ∧
    (run rosterLife ⟨start, []⟩).object.values =
      [.null, .set [(.number 1, .null), (.number 2, .null)]] := by
  have made : SharedObject.ofType rosterType = .ok ⟨.none, .unregistered, rosterType,
    [.null, .set []], []⟩ := rfl
  have proper : ∀ op ∈ rosterLife, op.Proper := by
    have one : (Value.set [(.number 1, .null)]).WellKeyed := by decide
    have reading : ObjectOperation.Proper (.readFields .initial ⟨[0, 1, 0], 0, ∅⟩) :=
      ⟨.initial, rfl, ∅, named_empty _ _⟩
    have joins : Event.WellKeyed ⟨⟨5⟩, 1, .elementAdd (.number 2) .null⟩ := by
      unfold Event.WellKeyed
      decide
    have beyond : Event.WellKeyed ⟨⟨5⟩, 7, .fieldSet .null⟩ := by
      unfold Event.WellKeyed
      decide
    simp only [rosterLife, List.forall_mem_cons]
    exact ⟨one, reading, trivial, joins, beyond, nofun⟩
  obtain ⟨conforms, -⟩ := Watched.always_conforms _ (.ofType made) [] rosterLife proper
  exact ⟨_, made, .ofType made, proper, conforms, rfl⟩

end SharedObjects
