import SharedObjects.Proofs.Catalog.Growth
import SharedObjects.Proofs.SharedObject.Changes
set_option autoImplicit false

namespace SharedObjects

theorem FieldType.wellKeyed_default (declared : FieldType) : declared.default.WellKeyed := by
  rw [Value.wellKeyed_iff]
  cases declared <;> simp [default, Value.KeysDistinct, Value.contents, Entries.Distinct,
    Entries.keys]

namespace SharedObject

variable {c : Catalog} {o : SharedObject}

/-- An object of a catalogued distributed type that is not live yet. -/
structure Fresh (c : Catalog) (o : SharedObject) : Prop where
  quiet : o.listeners = []
  known : c.get? o.type.name = some o.type
  distributed : o.type.isDistributed = true
  keyed : ∀ v ∈ o.values, v.WellKeyed

theorem fresh_of_new (reachable : c.Reachable) {name : String} (made : new c name = .ok o) :
    o.Fresh c := by
  unfold new at made
  split at made
  · rename_i type resolved
    unfold ofType at made
    split at made
    · rename_i distributed
      cases made
      have known : c.get? name = some type := by
        unfold Catalog.resolve at resolved
        split at resolved <;> cases resolved
        assumption
      refine ⟨rfl, ?_, distributed, fun v mem => ?_⟩
      · rw [reachable.name_eq known]
        exact known
      · obtain ⟨f, _, rfl⟩ := List.mem_map.mp mem
        exact f.type.wellKeyed_default
    · cases made
  · cases made

/-- An object of a catalogued distributed type, whatever has become of it. -/
structure Catalogued (c : Catalog) (o : SharedObject) : Prop where
  known : c.get? o.type.name = some o.type
  distributed : o.type.isDistributed = true
  keyed : ∀ v ∈ o.values, v.WellKeyed

theorem Fresh.catalogued (fresh : o.Fresh c) : o.Catalogued c :=
  ⟨fresh.known, fresh.distributed, fresh.keyed⟩

theorem put_of_set {index : UInt16} {v : Value} {after : SharedObject}
    (written : o.set index v = .ok after) : after = o.put index v := by
  unfold SharedObject.set at written
  split at written
  · cases written
  split at written
  · cases written
  split at written <;> cases written
  rfl

theorem Catalogued.put (catalogued : o.Catalogued c) {v : Value} (keyed : v.WellKeyed)
    (index : UInt16) : (o.put index v).Catalogued c :=
  ⟨catalogued.known, catalogued.distributed, fun w mem =>
    (List.mem_or_eq_of_mem_set mem).elim (catalogued.keyed w) fun same => same ▸ keyed⟩

theorem Fresh.set {index : UInt16} {v : Value} {after : SharedObject} (fresh : o.Fresh c)
    (keyed : v.WellKeyed) (written : o.set index v = .ok after) : after.Fresh c := by
  obtain rfl := put_of_set written
  exact ⟨fresh.quiet, fresh.known, fresh.distributed, (fresh.catalogued.put keyed index).keyed⟩

theorem Fresh.setAll {fields : List (UInt16 × Value)} {after : SharedObject} (fresh : o.Fresh c)
    (keyed : ∀ f ∈ fields, f.2.WellKeyed) (written : o.setAll fields = .ok after) :
    after.Fresh c := by
  unfold SharedObject.setAll at written
  induction fields generalizing o with
  | nil =>
    cases written
    exact fresh
  | cons f fields ih =>
    rw [List.foldlM_cons] at written
    cases first : o.set f.1 f.2 with
    | error fault =>
      rw [first] at written
      cases written
    | ok next =>
      rw [first] at written
      exact ih (fresh.set (keyed f (by simp)) first) (fun g mem => keyed g (by simp [mem])) written

theorem fresh_of_make (reachable : c.Reachable) {name : String} {fields : List (UInt16 × Value)}
    (keyed : ∀ f ∈ fields, f.2.WellKeyed) (made : make c name fields = .ok o) : o.Fresh c := by
  unfold make at made
  split at made
  · rename_i first new
    exact (fresh_of_new reachable new).setAll keyed made
  · cases made

end SharedObject

end SharedObjects
