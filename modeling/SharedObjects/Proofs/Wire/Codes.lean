import Mathlib.Data.List.Dedup
import Std.Data.HashMap.Lemmas
import SharedObjects.Limits
set_option autoImplicit false

namespace SharedObjects

abbrev Codes := Std.HashMap String Nat

namespace Codes

def use (codes : Codes) (name : String) : Codes :=
  if codes.contains name then codes else codes.insert name (codes.size + 1)

def useAll (codes : Codes) (names : List String) : Codes := names.foldl use codes

@[simp] theorem useAll_nil (codes : Codes) : codes.useAll [] = codes := rfl

@[simp] theorem useAll_cons (codes : Codes) (name : String) (names : List String) :
    codes.useAll (name :: names) = (codes.use name).useAll names := rfl

theorem useAll_append (codes : Codes) (names more : List String) :
    codes.useAll (names ++ more) = (codes.useAll names).useAll more := List.foldl_append

theorem use_of_some {codes : Codes} {name : String} {code : Nat}
    (known : codes[name]? = some code) : codes.use name = codes := by
  simp [use, Std.HashMap.contains_eq_isSome_getElem?, known]

theorem use_of_none {codes : Codes} {name : String} (new : codes[name]? = none) :
    codes.use name = codes.insert name (codes.size + 1) := by
  simp [use, Std.HashMap.contains_eq_isSome_getElem?, new]

theorem size_use_of_none {codes : Codes} {name : String} (new : codes[name]? = none) :
    (codes.use name).size = codes.size + 1 := by
  have absent : name ∉ codes := by simpa using new
  simp [use_of_none new, Std.HashMap.size_insert, absent]

theorem size_le_use (codes : Codes) (name : String) : codes.size ≤ (codes.use name).size := by
  cases h : codes[name]? with
  | none => simp [size_use_of_none h]
  | some code => simp [use_of_some h]

theorem size_le_useAll (codes : Codes) (names : List String) :
    codes.size ≤ (codes.useAll names).size := by
  induction names generalizing codes with
  | nil => exact Nat.le_refl _
  | cons name names ih => exact Nat.le_trans (codes.size_le_use name) (ih _)

theorem mem_use {codes : Codes} {name other : String} :
    other ∈ codes.use name ↔ other = name ∨ other ∈ codes := by
  cases h : codes[name]? with
  | none =>
    rw [use_of_none h, Std.HashMap.mem_insert, beq_iff_eq, eq_comm]
  | some code =>
    have known : name ∈ codes := by
      rw [Std.HashMap.mem_iff_isSome_getElem?, h]
      rfl
    rw [use_of_some h]
    exact ⟨.inr, fun either => either.elim (fun same => same ▸ known) id⟩

theorem mem_useAll {codes : Codes} {names : List String} {name : String} :
    name ∈ codes.useAll names ↔ name ∈ names ∨ name ∈ codes := by
  induction names generalizing codes with
  | nil => simp
  | cons first names ih =>
    rw [useAll_cons, ih, mem_use, List.mem_cons, or_assoc, or_left_comm]

/-- A name has one code however often it is used. -/
theorem size_useAll_empty (names : List String) :
    (useAll ∅ names).size = names.dedup.length := by
  have distinct : (useAll ∅ names).keys.Nodup :=
    Std.HashMap.distinct_keys.imp fun different => by simpa using different
  have used : (useAll ∅ names).keys.Perm names.dedup :=
    (List.perm_ext_iff_of_nodup distinct names.nodup_dedup).mpr fun name => by
      rw [Std.HashMap.mem_keys, mem_useAll, List.mem_dedup]
      simp
  rw [← Std.HashMap.length_keys, used.length_eq]

end Codes

end SharedObjects
