import Mathlib.Logic.Relation
import SharedObjects.Follower
import SharedObjects.Proofs.SharedObject.Applying
import SharedObjects.SharedObject.Proposal
/-!
Members of a set that an object holds. Events for members bring one in, take one out or give one
another value, and other events leave the set alone, except for one that writes the field: it is
taken like one for any other field, and what it carries stands in the place of all members.
-/
set_option autoImplicit false

namespace SharedObjects

namespace Members

/-- One member more at the end, one less, one with another value, or no difference at all. -/
inductive Moves : Members → Members → Prop
  | stays {members : Members} : Moves members members
  | joins {members : Members} {k : Key} {v : Value} : k ∉ Entries.keys members →
    Moves members (members ++ [(k, v)])
  | leaves {before behind : Members} {k : Key} {v : Value} :
    Moves (before ++ (k, v) :: behind) (before ++ behind)
  | changes {before behind : Members} {k : Key} {old v : Value} :
    Moves (before ++ (k, old) :: behind) (before ++ (k, v) :: behind)

variable {members after : Members} {change : Change}

theorem Moves.length_le (moves : members.Moves after) :
    List.length members ≤ List.length after + 1 := by
  cases moves with
  | stays => exact Nat.le_succ _
  | joins | leaves | changes => simp only [List.length_append, List.length_cons]; omega

theorem moves_of_apply (distinct : members.Distinct) (applied : apply change members = .ok after) :
    members.Moves after := by
  cases change with
  | added k v =>
    obtain ⟨absent, rfl⟩ := add_eq_ok_iff.mp applied
    exact .joins absent
  | removed k =>
    obtain ⟨before, v, behind, rfl, rfl⟩ := (remove_eq_ok_iff distinct).mp applied
    exact .leaves
  | updated k v =>
    obtain ⟨before, old, behind, rfl, rfl⟩ := (update_eq_ok_iff distinct).mp applied
    exact .changes

end Members

def Event.Writes (e : Event) (index : UInt16) (v : Value) : Prop :=
  e.field = index ∧ e.action = .fieldSet v

namespace SharedObject

open Relation (ReflTransGen)

variable {o after : SharedObject} {e : Event} {index : UInt16} {f : Field} {members : Members}
  {v : Value}

/-- An object that holds a set of these members in a field declared for one. -/
structure Houses (o : SharedObject) (index : UInt16) (members : Members) : Prop where
  declared : ∃ f, o.type.field? index = some f ∧ f.type = .set
  held : o.get? index = some (.set members)
  distinct : members.Distinct

theorem Houses.within (houses : o.Houses index members) : index.toNat < o.values.length :=
  (List.getElem?_eq_some_iff.mp houses.held).1

theorem get?_put_ne {i j : UInt16} (other : i ≠ j) (v : Value) : (o.put i v).get? j = o.get? j :=
  List.getElem?_set_ne fun same => other (UInt16.toNat_inj.mp same)

theorem Houses.next (houses : o.Houses index members) (applied : o.apply e = .ok after)
    (unwritten : ∀ v, ¬e.Writes index v) : ∃ now, after.Houses index now ∧ members.Moves now := by
  obtain ⟨-, -, rfl | ⟨g, was, v, there, holds, revises, rfl⟩⟩ := apply_ok applied
  · exact ⟨members, houses, .stays⟩
  by_cases here : e.field = index
  · subst here
    obtain ⟨f, declared, set⟩ := houses.declared
    obtain rfl : g = f := Option.some.inj (there.symm.trans declared)
    obtain rfl : was = .set members := Option.some.inj (holds.symm.trans houses.held)
    have housed (now : Members) (distinct : now.Distinct) :
        (o.put e.field (.set now)).Houses e.field now :=
      ⟨⟨g, declared, set⟩, get?_put houses.within _, distinct⟩
    generalize asked : e.action = action at revises
    cases revises with
    | replaced => exact absurd ⟨rfl, asked⟩ (unwritten v)
    | changed _ changed =>
      exact ⟨_, housed _ (Members.distinct_of_apply houses.distinct changed),
        Members.moves_of_apply houses.distinct changed⟩
    | heard => exact ⟨members, housed _ houses.distinct, .stays⟩
  · have elsewhere : (o.put e.field v).get? index = some (.set members) :=
      (get?_put_ne here v).trans houses.held
    exact ⟨members, ⟨houses.declared, elsewhere, houses.distinct⟩, .stays⟩

theorem Houses.replay (houses : o.Houses index members) (events : List (Seq × Event))
    (unwritten : ∀ e ∈ events, ∀ v, ¬e.2.Writes index v) :
    ∃ now, (o.replay events).object.Houses index now ∧ ReflTransGen Members.Moves members now := by
  induction events generalizing o members with
  | nil => exact ⟨members, houses, .refl⟩
  | cons item rest ih =>
    obtain ⟨seq, e⟩ := item
    obtain ⟨first, later⟩ := List.forall_mem_cons.mp unwritten
    rw [SharedObject.replay]
    cases applied : o.apply e with
    | error fault => exact ih houses later
    | ok after =>
      obtain ⟨next, housed, moves⟩ := houses.next applied first
      obtain ⟨now, ends, steps⟩ := ih housed later
      exact ⟨now, ends, .head moves steps⟩

theorem Houses.written (houses : o.Houses index members) (applied : o.apply e = .ok after)
    (writes : e.Writes index v) : after.get? index = some v := by
  obtain ⟨rfl, action⟩ := writes
  obtain ⟨live, named, -⟩ := apply_ok applied
  obtain ⟨f, declared, -⟩ := houses.declared
  have lasting : e.isTransient = false := by
    simp [Event.isTransient, Event.kind, action, Action.kind, EventKind.isTransient]
  rw [apply_slot live named lasting declared houses.held, action, revised] at applied
  split at applied <;> cases applied
  exact get?_put houses.within v

/-- Where a field is declared to hold a set and holds one, an event that the object takes leaves
the members as they are, brings in one behind them, takes one out or gives one another value,
exactly if it does not write the field, or writes to it a set that differs so. And so it goes on:
from whatever events a replica takes, one after the other, none of which writes the field, the
members are moved one at a time. -/
theorem members_move_singly (houses : o.Houses index members) :
    (∀ e after, o.apply e = .ok after →
      ((∃ now, after.get? index = some (.set now) ∧ members.Moves now) ↔
        ∀ v, e.Writes index v → ∃ now, v = .set now ∧ members.Moves now)) ∧
    ∀ events : List (Seq × Event), (∀ e ∈ events, ∀ v, ¬e.2.Writes index v) →
      ∃ now, (o.replay events).object.Houses index now ∧
        ReflTransGen Members.Moves members now := by
  refine ⟨fun e after applied => ⟨?_, fun fits => ?_⟩, houses.replay⟩
  · rintro ⟨now, held, moves⟩ v writes
    have written := houses.written applied writes
    exact ⟨now, Option.some.inj (written.symm.trans held), moves⟩
  · by_cases writes : ∃ v, e.Writes index v
    · obtain ⟨v, writes⟩ := writes
      obtain ⟨now, rfl, moves⟩ := fits v writes
      exact ⟨now, houses.written applied writes, moves⟩
    · obtain ⟨now, housed, moves⟩ := houses.next applied (not_exists.mp writes)
      exact ⟨now, housed.held, moves⟩

end SharedObject

def rosterMembers : Members :=
  [(.number 1, .null), (.number 2, .bool true), (.number 3, .null)]

theorem houses_roster : roster.Houses 1 rosterMembers :=
  ⟨⟨_, rfl, rfl⟩, rfl, by unfold Entries.Distinct; decide⟩

theorem SharedObject.members_move_singly_roster : roster.Houses 1 rosterMembers ∧
    (∃ after, roster.apply leaves = .ok after ∧
      ∃ now, after.get? 1 = some (.set now) ∧ rosterMembers.Moves now) ∧
    ∃ now, (roster.replay [(⟨1⟩, leaves), (⟨1⟩, leaves)]).object.Houses 1 now ∧
      Relation.ReflTransGen Members.Moves rosterMembers now := by
  obtain ⟨singly, onwards⟩ := SharedObject.members_move_singly houses_roster
  have quiet (v : Value) : ¬leaves.Writes 1 v := fun ⟨_, action⟩ => by cases action
  refine ⟨houses_roster, ⟨_, rfl, (singly leaves _ rfl).mpr fun v writes => ?_⟩, onwards _ ?_⟩
  · exact absurd writes (quiet v)
  · intro item mem
    obtain rfl : item = (⟨1⟩, leaves) := by simpa using mem
    exact quiet

/-- One event gives a roster other members, all at once, and another leaves it without a set; both
may be proposed. -/
theorem SharedObject.members_overwritten :
    let others : Action := .fieldSet (.set [(.number 9, .null)])
    roster.Reachable ∧ roster.stage = .live ∧ roster.Houses 1 rosterMembers ∧
    ¬rosterMembers.Moves [(.number 9, .null)] ∧
    (∃ e after, roster.propose 1 others = .ok e ∧ roster.apply e = .ok after ∧
      after.get? 1 = some (.set [(.number 9, .null)])) ∧
    ∃ e after, roster.propose 1 (.fieldSet .null) = .ok e ∧ roster.apply e = .ok after ∧
      after.get? 1 = some .null := by
  intro others
  have far : ¬rosterMembers.Moves [(.number 9, .null)] := fun moves => by
    have near := moves.length_le
    simp [rosterMembers] at near
  exact ⟨reachable_roster, rfl, houses_roster, far, ⟨_, _, rfl, rfl, rfl⟩, _, _, rfl, rfl, rfl⟩

end SharedObjects
