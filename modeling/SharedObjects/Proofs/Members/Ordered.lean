import Mathlib.Logic.Function.Basic
import SharedObjects.Proofs.Members
import SharedObjects.Proofs.Steps
set_option autoImplicit false

namespace SharedObjects

inductive SetCall
  | add (key : Key) (value : Value)
  | remove (key : Key)
  | update (key : Key) (value : Value)

def Members.revise (f : Members → Except Fault Members) (change : Change) :
    Attempt Members Change := do
  set (← Attempt.demand (f (← get)))
  return change

def SetCall.perform : SetCall → Attempt Members Change
  | add k v => Members.revise (Members.add k v) (.added k v)
  | remove k => Members.revise (Members.remove k) (.removed k)
  | update k v => Members.revise (Members.update k v) (.updated k v)

/-- What stands under each key, and the order in which the keys came. -/
structure OrderedMap where
  order : List Key
  value? : Key → Option Value

namespace OrderedMap

def entries (m : OrderedMap) : Members :=
  m.order.filterMap fun k => (m.value? k).map fun v => (k, v)

/-- A new key goes to the end, one that goes leaves the others in order, and one that has its value
replaced stays in its place. -/
def perform : SetCall → Attempt OrderedMap Change
  | .add k v => fun m =>
    if k ∈ m.order then .error (.duplicateElement k.label) m
    else .ok (.added k v) ⟨m.order ++ [k], Function.update m.value? k (some v)⟩
  | .remove k => fun m =>
    if k ∈ m.order then .ok (.removed k) ⟨m.order.erase k, Function.update m.value? k none⟩
    else .error (.notFound k.label) m
  | .update k v => fun m =>
    if k ∈ m.order then .ok (.updated k v) ⟨m.order, Function.update m.value? k (some v)⟩
    else .error (.notFound k.label) m

def of (members : Members) : OrderedMap := ⟨members.keys, fun k => members.get? k⟩

theorem entries_of {members : Members} (distinct : members.Distinct) :
    (of members).entries = members := by
  have each (e : Key × Value) (mem : e ∈ members) :
      (members.get? e.1).map (fun v => (e.1, v)) = some e := by
    rw [distinct.mem_iff.mp mem]
    rfl
  simp only [entries, of, Entries.keys, List.filterMap_map, Function.comp_def]
  rw [List.filterMap_congr each, List.filterMap_some]

end OrderedMap

section

variable {members after : Members} {fault : Fault}

theorem OrderedMap.of_put (k : Key) (v : Value) (members : Members) :
    of (members.put k v) =
      ⟨(members.put k v).keys, Function.update (of members).value? k (some v)⟩ := by
  simp only [of, OrderedMap.mk.injEq, true_and]
  ext1 k'
  by_cases here : k' = k
  · simp [here]
  · rw [Entries.get?_put_ne here, Function.update_of_ne here]

theorem OrderedMap.of_erase (k : Key) (members : Members) :
    of (members.erase k) =
      ⟨(members.erase k).keys, Function.update (of members).value? k none⟩ := by
  simp only [of, OrderedMap.mk.injEq, true_and]
  ext1 k'
  by_cases here : k' = k <;> simp [Entries.get?_erase, here]

namespace SetCall

open Attempt (inTurn)

theorem revise_eq (f : Members → Except Fault Members) (change : Change) (members : Members) :
    Members.revise f change members =
      match f members with
      | .ok after => .ok change after
      | .error fault => .error fault members := by
  unfold Members.revise
  rw [Attempt.get_bind]
  cases made : f members with
  | ok after =>
    rw [Attempt.bind_ok (Attempt.demand_ok rfl members)]
    rfl
  | error fault => rw [Attempt.bind_error (Attempt.demand_error rfl members)]

theorem of_revise {f : Members → Except Fault Members} {d change : Change}
    (done : Members.revise f d members = .ok change after) :
    change = d ∧ f members = .ok after := by
  rw [revise_eq] at done
  split at done <;> cases done
  exact ⟨rfl, ‹_›⟩

theorem kept_of_revise {f : Members → Except Fault Members} {d : Change}
    (refused : Members.revise f d members = .error fault after) : after = members := by
  rw [revise_eq] at refused
  split at refused <;> cases refused
  rfl

theorem apply_of_perform {call : SetCall} {change : Change}
    (done : call.perform members = .ok change after) :
    Members.apply change members = .ok after := by
  cases call <;> obtain ⟨rfl, made⟩ := of_revise done <;> exact made

theorem kept_of_perform {call : SetCall} (refused : call.perform members = .error fault after) :
    after = members := by
  cases call <;> exact kept_of_revise refused

/-- A set refuses a call for the key it names and for nothing else, and stays as it was. -/
structure Exacting (members : Members) : Prop where
  add : ∀ k v fault after, (SetCall.add k v).perform members = .error fault after ↔
    k ∈ members.keys ∧ fault = .duplicateElement k.label ∧ after = members
  remove : ∀ k fault after, (SetCall.remove k).perform members = .error fault after ↔
    k ∉ members.keys ∧ fault = .notFound k.label ∧ after = members
  update : ∀ k v fault after, (SetCall.update k v).perform members = .error fault after ↔
    k ∉ members.keys ∧ fault = .notFound k.label ∧ after = members

theorem exacting (members : Members) : Exacting members where
  add k v fault after := by
    by_cases present : k ∈ members.keys <;>
      simp [perform, revise_eq, Members.add_eq, present, eq_comm]
  remove k fault after := by
    by_cases present : k ∈ members.keys <;>
      simp [perform, revise_eq, Members.remove_eq, present, eq_comm]
  update k v fault after := by
    by_cases present : k ∈ members.keys <;>
      simp [perform, revise_eq, Members.update_eq, present, eq_comm]

theorem perform_of (distinct : members.Distinct) (call : SetCall) :
    OrderedMap.perform call (.of members) =
      match call.perform members with
      | .ok change after => .ok change (.of after)
      | .error fault after => .error fault (.of after) := by
  have keys : (OrderedMap.of members).order = members.keys := rfl
  cases call with
  | add k v =>
    simp only [OrderedMap.perform, perform, revise_eq, Members.add_eq, keys]
    split
    · rfl
    · rename_i new
      rw [Entries.mem_keys_iff] at new
      simp [OrderedMap.of_put, Entries.keys_put, new]
  | remove k =>
    simp only [OrderedMap.perform, perform, revise_eq, Members.remove_eq, keys]
    split
    · have left : members.keys.erase k = (members.erase k).keys := by
        rw [Entries.keys_erase, distinct.erase_eq_filter]
        exact List.filter_congr fun k' _ => by simp [bne, beq_eq_decide]
      simp [OrderedMap.of_erase, left]
    · rfl
  | update k v =>
    simp only [OrderedMap.perform, perform, revise_eq, Members.update_eq, keys]
    split
    · rename_i present
      simp [OrderedMap.of_put, Entries.keys_put, Entries.mem_keys_iff.mp present]
    · rfl

theorem inTurn_of (distinct : members.Distinct) (calls : List SetCall) :
    (inTurn perform calls members).1 = (inTurn OrderedMap.perform calls (.of members)).1 ∧
    (inTurn perform calls members).2.Distinct ∧
    (inTurn OrderedMap.perform calls (.of members)).2 = .of (inTurn perform calls members).2 := by
  let Maps (members : Members) (m : OrderedMap) : Prop := members.Distinct ∧ m = .of members
  have start : Maps members (.of members) := ⟨distinct, rfl⟩
  refine Attempt.inTurn_related (I := Eq) ?_ (List.forall₂_same.mpr fun _ _ => rfl) start
  rintro call _ members _ rfl ⟨distinct, rfl⟩
  have alike := perform_of distinct call
  cases done : call.perform members with
  | error fault after =>
    rw [done] at alike
    obtain rfl := kept_of_perform done
    rw [Attempt.outcome_error done, Attempt.outcome_error alike]
    exact ⟨rfl, distinct, rfl⟩
  | ok change after =>
    rw [done] at alike
    rw [Attempt.outcome_ok done, Attempt.outcome_ok alike]
    exact ⟨rfl, Members.distinct_of_apply distinct (apply_of_perform done), rfl⟩

end SetCall

end

end SharedObjects
