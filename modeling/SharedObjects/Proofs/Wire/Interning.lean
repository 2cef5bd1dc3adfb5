import Mathlib.Data.List.Induction
import SharedObjects.Proofs.Steps
import SharedObjects.Proofs.Wire.Spelling
set_option autoImplicit false

namespace SharedObjects

/-- These names and no others have codes, which are one, two and so on in their order. -/
structure Codes.Number (codes : Codes) (names : List String) : Prop where
  distinct : names.Nodup
  size_eq : codes.size = names.length
  coded : ∀ name code, codes[name]? = some code ↔ 0 < code ∧ names[code - 1]? = some name

/-- The tag of a type in a message: the code that stands there, and the name it stands for. -/
structure Tag where
  name : String
  code : Int

def Tag.wire (t : Tag) : Octets :=
  Octets.ofInt16 (Int16.ofInt t.code) ++ if t.code < 0 then Octets.ofText t.name else []

/-- Each name is declared once, where it comes up first, under minus one, minus two and so on; where
it comes up again, there stands the code it was declared under. -/
structure Interned (tags : List Tag) : Prop where
  declarations : tags.filter (·.code < 0) =
    (tags.map Tag.name).eraseDups.mapIdx fun i name => ⟨name, -(i + 1)⟩
  first : ∀ before t after, tags = before ++ t :: after →
    t.name ∉ before.map Tag.name → t.code < 0
  again : ∀ before t after, tags = before ++ t :: after →
    t.name ∈ before.map Tag.name → 0 < t.code ∧ ⟨t.name, -t.code⟩ ∈ before

theorem eraseDups_concat_of_mem {names : List String} {name : String} (used : name ∈ names) :
    (names ++ [name]).eraseDups = names.eraseDups := by
  simp [List.eraseDups_append, List.removeAll, used]

theorem eraseDups_concat_of_not_mem {names : List String} {name : String} (new : name ∉ names) :
    (names ++ [name]).eraseDups = names.eraseDups ++ [name] := by
  simp [List.eraseDups_append, List.removeAll, new, List.eraseDups_cons]

namespace Codes

variable {codes : Codes} {names : List String} {name : String}

theorem number_empty : Number ∅ [] := ⟨by simp, by simp, by simp⟩

namespace Number

theorem coded_of_mem (number : codes.Number names) (used : name ∈ names) :
    ∃ i, names[i]? = some name ∧ codes[name]? = some (i + 1) := by
  obtain ⟨i, at_i⟩ := List.mem_iff_getElem?.mp used
  exact ⟨i, at_i, (number.coded name (i + 1)).mpr ⟨by omega, by simpa using at_i⟩⟩

theorem uncoded_of_not_mem (number : codes.Number names) (new : name ∉ names) :
    codes[name]? = none := by
  cases coded : codes[name]? with
  | none => rfl
  | some code =>
    have held := ((number.coded name code).mp coded).2
    exact absurd (List.mem_of_getElem? held) new

theorem use_new (number : codes.Number names) (new : name ∉ names) :
    (codes.use name).Number (names ++ [name]) where
  distinct := List.nodup_append.mpr ⟨number.distinct, by simp, fun other mem last here same => by
    rw [List.mem_singleton.mp here] at same
    exact new (same ▸ mem)⟩
  size_eq := by
    rw [size_use_of_none (number.uncoded_of_not_mem new), number.size_eq, List.length_append,
      List.length_singleton]
  coded other code := by
    have uncoded := number.uncoded_of_not_mem new
    have size := number.size_eq
    rw [use_of_none uncoded, Std.HashMap.getElem?_insert]
    -- In the last place stands the new name, in those before it what stood there.
    by_cases within : code - 1 < names.length
    · rw [List.getElem?_append_left within, ← number.coded]
      by_cases same : name = other
      · subst same
        have later : codes.size + 1 ≠ code := by omega
        simp [uncoded, later]
      · simp [same]
    · rw [List.getElem?_append_right (by omega)]
      by_cases same : name = other
      · subst same
        rw [List.getElem?_singleton]
        simp
        omega
      · have unheld : codes[other]? ≠ some code := fun coded => by
          have held := ((number.coded other code).mp coded).2
          exact within (List.getElem?_eq_some_iff.mp held).1
        simp [same, unheld, List.getElem?_singleton]

end Number

theorem number_useAll (names : List String) : (useAll ∅ names).Number names.eraseDups := by
  induction names using List.reverseRecOn with
  | nil => exact number_empty
  | append_singleton names name ih =>
    rw [useAll_append, useAll_cons, useAll_nil]
    by_cases used : name ∈ names
    · obtain ⟨i, -, coded⟩ := ih.coded_of_mem (List.mem_eraseDups.mpr used)
      rwa [eraseDups_concat_of_mem used, use_of_some coded]
    · rw [eraseDups_concat_of_not_mem used]
      exact ih.use_new (mt List.mem_eraseDups.mp used)

def tagOf (codes : Codes) (name : String) : Tag :=
  match codes[name]? with
  | some code => ⟨name, code⟩
  | none => ⟨name, -(codes.size + 1)⟩

def tags (codes : Codes) : List String → List Tag
  | [] => []
  | name :: names => codes.tagOf name :: (codes.use name).tags names

theorem wire_tagOf (codes : Codes) (name : String) :
    (codes.tagOf name).wire = codes.tag name := by
  unfold tagOf tag Tag.wire
  cases codes[name]? with
  | some code =>
    have positive : ¬(code : Int) < 0 := by omega
    simp [Int16.ofInt_eq_ofNat, positive]
  | none =>
    have negative : -((codes.size : Int) + 1) < 0 := by omega
    have number : Int16.ofInt ((codes.size : Int) + 1) = Int16.ofNat (codes.size + 1) := by
      rw [← Int16.ofInt_eq_ofNat, Int.natCast_add, Int.natCast_one]
    simp only [Int16.ofInt_neg, number, negative, if_true]

theorem tagOf_of_mem (used : name ∈ names) : ∃ i : Nat, names.eraseDups[i]? = some name ∧
    (useAll ∅ names).tagOf name = ⟨name, i + 1⟩ := by
  obtain ⟨i, held, coded⟩ := (number_useAll names).coded_of_mem (List.mem_eraseDups.mpr used)
  exact ⟨i, held, by simp [tagOf, coded]⟩

theorem tagOf_of_not_mem (new : name ∉ names) :
    (useAll ∅ names).tagOf name = ⟨name, -(names.eraseDups.length + 1)⟩ := by
  have number := number_useAll names
  have uncoded := number.uncoded_of_not_mem (mt List.mem_eraseDups.mp new)
  simp [tagOf, uncoded, number.size_eq]

theorem name_tagOf (codes : Codes) (name : String) : (codes.tagOf name).name = name := by
  unfold tagOf
  split <;> rfl

theorem map_name_tags (codes : Codes) (names : List String) :
    (codes.tags names).map Tag.name = names := by
  induction names generalizing codes with
  | nil => rfl
  | cons name names ih => rw [tags, List.map_cons, name_tagOf, ih]

theorem tags_append (codes : Codes) (names more : List String) :
    codes.tags (names ++ more) = codes.tags names ++ (codes.useAll names).tags more := by
  induction names generalizing codes with
  | nil => rfl
  | cons name names ih => rw [List.cons_append, tags, tags, ih, List.cons_append, useAll_cons]

end Codes

namespace Interned

variable {tags : List Tag}

theorem nil : Interned [] := ⟨by simp, by simp, by simp⟩

theorem declared (interned : Interned tags) {i : Nat} {name : String}
    (held : (tags.map Tag.name).eraseDups[i]? = some name) :
    (⟨name, -(i + 1)⟩ : Tag) ∈ tags := by
  have here : (tags.filter (·.code < 0))[i]? = some ⟨name, -(i + 1)⟩ := by
    rw [interned.declarations, List.getElem?_mapIdx, held, Option.map_some]
  exact (List.mem_filter.mp (List.mem_of_getElem? here)).1

theorem declarations_concat (tags : List Tag) (last : Tag) :
    (tags ++ [last]).filter (·.code < 0) =
      tags.filter (·.code < 0) ++ if last.code < 0 then [last] else [] := by
  simp [List.filter_cons]

theorem concat (interned : Interned tags) (name : String) :
    Interned (tags ++ [(Codes.useAll ∅ (tags.map Tag.name)).tagOf name]) := by
  by_cases used : name ∈ tags.map Tag.name
  · obtain ⟨i, held, tagged⟩ := Codes.tagOf_of_mem used
    have positive : ¬(i : Int) + 1 < 0 := by omega
    rw [tagged]
    refine ⟨?_, fun before t after split new => ?_, fun before t after split old => ?_⟩
    · rw [List.map_append, List.map_singleton, eraseDups_concat_of_mem used,
        ← interned.declarations, declarations_concat, if_neg positive, List.append_nil]
    · rcases snoc_eq_split_iff.mp split with ⟨rfl, rfl, rfl⟩ | ⟨rest, rfl, earlier⟩
      · exact absurd used new
      · exact interned.first before t rest earlier new
    · rcases snoc_eq_split_iff.mp split with ⟨rfl, rfl, rfl⟩ | ⟨rest, rfl, earlier⟩
      · exact ⟨Int.natCast_succ_pos i, interned.declared held⟩
      · exact interned.again before t rest earlier old
  · have negative : -((tags.map Tag.name).eraseDups.length + 1 : Int) < 0 := by omega
    rw [Codes.tagOf_of_not_mem used]
    refine ⟨?_, fun before t after split new => ?_, fun before t after split old => ?_⟩
    · rw [List.map_append, List.map_singleton, eraseDups_concat_of_not_mem used,
        List.mapIdx_concat, ← interned.declarations, declarations_concat, if_pos negative]
    · rcases snoc_eq_split_iff.mp split with ⟨rfl, rfl, rfl⟩ | ⟨rest, rfl, earlier⟩
      · exact negative
      · exact interned.first before t rest earlier new
    · rcases snoc_eq_split_iff.mp split with ⟨rfl, rfl, rfl⟩ | ⟨rest, rfl, earlier⟩
      · exact absurd old used
      · exact interned.again before t rest earlier old

end Interned

theorem Codes.interned_tags (names : List String) : Interned (tags ∅ names) := by
  induction names using List.reverseRecOn with
  | nil => exact .nil
  | append_singleton names name ih =>
    have next := ih.concat name
    rw [map_name_tags] at next
    rw [tags_append]
    exact next

end SharedObjects
