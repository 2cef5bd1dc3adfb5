import Std.Data.HashMap.Lemmas
import SharedObjects.Catalog
set_option autoImplicit false

namespace SharedObjects

theorem firstRepeat_eq_none_iff {seen : Std.HashSet String} {names : List String} :
    firstRepeat seen names = none ↔ names.Nodup ∧ ∀ name ∈ names, name ∉ seen := by
  induction names generalizing seen with
  | nil => simp [firstRepeat]
  | cons name names ih =>
    rw [firstRepeat]
    split
    · rename_i known
      simp [Std.HashSet.contains_iff_mem.mp known]
    · rename_i new
      rw [Std.HashSet.contains_iff_mem] at new
      simp only [ih, Std.HashSet.mem_insert, List.nodup_cons, List.forall_mem_cons]
      grind

namespace Catalog

/-- What a schema inherits: nothing, if it extends no type, else all that the type it extends has,
which is registered and of its kind. -/
inductive Inherits (c : Catalog) (s : Schema) : List String → List Field → Prop
  | nothing : s.kind = .streamable → Inherits c s [] []
  | parent {name : String} {p : ResolvedType} : c.get? name = some p → p.kind = s.kind →
    Inherits c s (p.name :: p.ancestors) p.fields

structure Resolves (c : Catalog) (s : Schema) (t : ResolvedType) : Prop where
  named : s.name ≠ ""
  new : c.contains s.name = false
  shape : ∃ ancestors above, c.inherited s = .ok (ancestors, above) ∧
    t = ⟨s.name, s.kind, ancestors, above ++ s.fields⟩
  few : t.fields.length ≤ maxFields
  distinct : (t.fields.map Field.name).Nodup

theorem inherits_of_inherited {c : Catalog} {s : Schema} {ancestors : List String}
    {above : List Field} (inherited : c.inherited s = .ok (ancestors, above)) :
    c.Inherits s ancestors above := by
  unfold Catalog.inherited at inherited
  split at inherited
  next parent _ =>
    split at inherited
    · cases inherited
    next p known =>
      split at inherited <;> cases inherited
      exact .parent known ‹_›
  next =>
    split at inherited <;> cases inherited
    rename_i other
    exact .nothing (by cases kind : s.kind <;> simp_all)

theorem resolves_of_resolution {c : Catalog} {s : Schema} {t : ResolvedType}
    (resolved : c.resolution s = .ok t) : c.Resolves s t := by
  unfold resolution at resolved
  split at resolved
  · cases resolved
  split at resolved
  · cases resolved
  rename_i named absent
  split at resolved
  · cases resolved
  rename_i ancestors above inherited
  simp only at resolved
  split at resolved
  · cases resolved
  rename_i few
  split at resolved <;> cases resolved
  rename_i distinct
  exact ⟨named, by simpa using absent, ⟨ancestors, above, inherited, rfl⟩, Nat.le_of_not_lt few,
    (firstRepeat_eq_none_iff.mp distinct).1⟩

/-- Registrations lead from the initial catalog to this one; those that fail change nothing. -/
inductive Reachable : Catalog → Prop
  | initial : Reachable .initial
  | register {c after : Catalog} {s : Schema} {t : ResolvedType} :
    Reachable c → c.register s = .ok (after, t) → Reachable after

theorem register_eq {c after : Catalog} {s : Schema} {t : ResolvedType}
    (registered : c.register s = .ok (after, t)) :
    c.resolution s = .ok t ∧ after = ⟨c.types.insert s.name t⟩ := by
  unfold register at registered
  split at registered
  · cases registered
  · rename_i resolved
    cases registered
    exact ⟨resolved, rfl⟩

theorem resolves_of_register {c after : Catalog} {s : Schema} {t : ResolvedType}
    (registered : c.register s = .ok (after, t)) : c.Resolves s t :=
  resolves_of_resolution (register_eq registered).1

theorem get?_register {c after : Catalog} {s : Schema} {t : ResolvedType}
    (registered : c.register s = .ok (after, t)) (name : String) :
    after.get? name = if s.name = name then some t else c.get? name := by
  obtain ⟨-, rfl⟩ := register_eq registered
  simp [get?, Std.HashMap.getElem?_insert]

theorem get?_initial_eq_some_iff {name : String} {t : ResolvedType} :
    initial.get? name = some t ↔ name = rootName ∧ t = .root := by
  rw [get?, initial, Std.HashMap.getElem?_insert]
  split
  · rename_i root
    simp [(beq_iff_eq.mp root).symm, eq_comm]
  · rename_i other
    have different : name ≠ rootName := fun same => other (beq_iff_eq.mpr same.symm)
    simp [different]

theorem Reachable.name_eq {c : Catalog} (reachable : c.Reachable) {name : String}
    {t : ResolvedType} (known : c.get? name = some t) : t.name = name := by
  induction reachable with
  | initial =>
    obtain ⟨rfl, rfl⟩ := get?_initial_eq_some_iff.mp known
    rfl
  | register reachable registered ih =>
    rw [get?_register registered] at known
    split at known
    · cases known
      rename_i same
      obtain ⟨_, _, -, rfl⟩ := (resolves_of_register registered).shape
      exact same
    · exact ih known

theorem get?_register_of_some {c after : Catalog} {s : Schema} {t u : ResolvedType} {name : String}
    (registered : c.register s = .ok (after, t)) (known : c.get? name = some u) :
    after.get? name = some u := by
  have absent := (resolves_of_register registered).new
  have other : s.name ≠ name := by
    rintro rfl
    have present : c.contains s.name = true := by
      rw [contains, Std.HashMap.contains_eq_isSome_getElem?]
      exact Option.isSome_iff_exists.mpr ⟨u, known⟩
    rw [absent] at present
    cases present
  rw [get?_register registered, if_neg other, known]

end Catalog

end SharedObjects
