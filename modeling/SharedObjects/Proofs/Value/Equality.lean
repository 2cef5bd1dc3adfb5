import SharedObjects.SharedObject
import SharedObjects.Proofs.Value.Parts
set_option autoImplicit false

namespace SharedObjects

namespace Value

theorem sameItems_self {vs : List Value} (all : ∀ v ∈ vs, v.same v = true) :
    sameItems vs vs = true := by
  induction vs with
  | nil => rw [sameItems]
  | cons v vs ih =>
    have rest := ih fun w mem => all w (by simp [mem])
    simp [sameItems, all v (by simp), rest]

theorem sameMembers_of_sublist {es whole : Members} (distinct : whole.Distinct)
    (within : ∀ e ∈ es, e ∈ whole) (all : ∀ e ∈ es, e.2.same e.2 = true) :
    sameMembers es whole = true := by
  induction es with
  | nil => exact sameMembers_nil whole
  | cons e es ih =>
    have rest := ih (fun e mem => within e (by simp [mem])) fun e mem => all e (by simp [mem])
    have found := distinct.mem_iff.mp (within e (by simp))
    simp [sameMembers_cons, found, all e (by simp), rest]

theorem same_self (v : Value) (keyed : v.WellKeyed) : v.same v = true := by
  induction v using Value.induction with
  | flat v flat => cases v <;> simp_all [isFlat, same]
  | list items ih =>
    have inside := (wellKeyed_iff.mp keyed).2
    simp [same, sameItems_self fun v mem => ih v mem (inside v mem)]
  | set members ih =>
    obtain ⟨distinct, inside⟩ := wellKeyed_iff.mp keyed
    have all : ∀ e ∈ members, e.2.same e.2 = true := fun e mem =>
      ih e mem (inside e.2 (List.mem_map_of_mem mem))
    simp [same, sameMembers_of_sublist distinct (fun _ => id) all]
  | record type fields ih =>
    have inside := (wellKeyed_iff.mp keyed).2
    simp [same, sameItems_self fun v mem => ih v mem (inside v mem)]

end Value

theorem SharedObject.same_self {o : SharedObject} (keyed : ∀ v ∈ o.values, v.WellKeyed) :
    o.same o = true := by
  simp [same, Value.sameItems_self fun v mem => v.same_self (keyed v mem)]

end SharedObjects
