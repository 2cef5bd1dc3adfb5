import SharedObjects.Catalog
set_option autoImplicit false

namespace SharedObjects

namespace Value

mutual

/-- A value and all values inside it. -/
def parts : Value → List Value
  | list items => list items :: itemParts items
  | set members => set members :: memberParts members
  | record type fields => record type fields :: itemParts fields
  | null => [null]
  | bool b => [bool b]
  | byte n => [byte n]
  | short n => [short n]
  | int n => [int n]
  | long n => [long n]
  | float bits => [float bits]
  | double bits => [double bits]
  | text s => [text s]
  | bytes bs => [bytes bs]
  termination_by structural v => v

def itemParts : List Value → List Value
  | [] => []
  | v :: vs => parts v ++ itemParts vs
  termination_by structural vs => vs

def memberParts : List (Key × Value) → List Value
  | [] => []
  | (_, v) :: es => parts v ++ memberParts es
  termination_by structural es => es

end

mutual

def nesting : Value → Nat
  | list items => deepest items + 1
  | set members => deepestMember members + 1
  | record _ fields => deepest fields + 1
  | _ => 0
  termination_by structural v => v

def deepest : List Value → Nat
  | [] => 0
  | v :: vs => max (nesting v) (deepest vs)
  termination_by structural vs => vs

def deepestMember : List (Key × Value) → Nat
  | [] => 0
  | (_, v) :: es => max (nesting v) (deepestMember es)
  termination_by structural es => es

end

def isFlat : Value → Bool
  | list _ | set _ | record _ _ => false
  | _ => true

def contents : Value → List Value
  | list items => items
  | set members => members.map Prod.snd
  | record _ fields => fields
  | _ => []

/-- What holds of flat values, and of every other value if it holds of those right inside it, holds
of all values. -/
theorem induction {P : Value → Prop} (flat : ∀ v, v.isFlat = true → P v)
    (list : ∀ items, (∀ v ∈ items, P v) → P (.list items))
    (set : ∀ members, (∀ e ∈ members, P e.2) → P (.set members))
    (record : ∀ type fields, (∀ v ∈ fields, P v) → P (.record type fields)) (v : Value) : P v :=
  @Value.rec P (fun vs => ∀ v ∈ vs, P v) (fun es => ∀ e ∈ es, P e.2) (fun e => P e.2)
    (flat _ rfl) (fun _ => flat _ rfl) (fun _ => flat _ rfl) (fun _ => flat _ rfl)
    (fun _ => flat _ rfl) (fun _ => flat _ rfl) (fun _ => flat _ rfl) (fun _ => flat _ rfl)
    (fun _ => flat _ rfl) (fun _ => flat _ rfl) list set record
    (by simp) (fun _ _ first rest => List.forall_mem_cons.mpr ⟨first, rest⟩)
    (by simp) (fun _ _ first rest => List.forall_mem_cons.mpr ⟨first, rest⟩)
    (fun _ _ value => value) v

def recordType? : Value → Option String
  | record type _ => some type
  | _ => none

def typeNames (v : Value) : List String := v.parts.filterMap recordType?

def KeysDistinct : Value → Prop
  | set members => Entries.Distinct members
  | _ => True

def WellKeyed (v : Value) : Prop := ∀ w ∈ v.parts, w.KeysDistinct

instance : DecidablePred KeysDistinct
  | set members => inferInstanceAs (Decidable (Entries.keys members).Nodup)
  | null | bool _ | byte _ | short _ | int _ | long _ | float _ | double _ | text _ | bytes _
  | list _ | record _ _ => isTrue trivial

instance (v : Value) : Decidable v.WellKeyed := inferInstanceAs (Decidable (∀ w ∈ v.parts, _))

theorem itemParts_eq (vs : List Value) : itemParts vs = vs.flatMap parts := by
  induction vs with
  | nil => rfl
  | cons v vs ih => simp [itemParts, ih]

theorem memberParts_eq (es : Members) : memberParts es = (es.map Prod.snd).flatMap parts := by
  induction es with
  | nil => rfl
  | cons e es ih => simp [memberParts, ih]

theorem parts_eq (v : Value) : v.parts = v :: v.contents.flatMap parts := by
  cases v <;> simp [parts, contents, itemParts_eq, memberParts_eq]

theorem contents_of_isFlat {v : Value} (flat : v.isFlat = true) : v.contents = [] := by
  cases v <;> simp_all [isFlat, contents]

theorem parts_of_isFlat {v : Value} (flat : v.isFlat = true) : v.parts = [v] := by
  rw [parts_eq, contents_of_isFlat flat, List.flatMap_nil]

theorem nesting_of_isFlat {v : Value} (flat : v.isFlat = true) : v.nesting = 0 := by
  cases v <;> simp_all [isFlat, nesting]

theorem self_mem_parts (v : Value) : v ∈ v.parts := by simp [parts_eq v]

theorem forall_parts_iff {P : Value → Prop} {v : Value} :
    (∀ w ∈ v.parts, P w) ↔ P v ∧ ∀ w ∈ v.contents, ∀ u ∈ w.parts, P u := by
  rw [parts_eq, List.forall_mem_cons]
  simp only [List.mem_flatMap]
  exact and_congr_right fun _ => ⟨fun h w mem u part => h u ⟨w, mem, part⟩,
    fun h u ⟨w, mem, part⟩ => h w mem u part⟩

theorem wellKeyed_iff {v : Value} :
    v.WellKeyed ↔ v.KeysDistinct ∧ ∀ w ∈ v.contents, w.WellKeyed := forall_parts_iff

theorem typeNames_eq (v : Value) :
    v.typeNames = v.recordType?.toList ++ v.contents.flatMap typeNames := by
  rw [typeNames, parts_eq, List.filterMap_cons, List.filterMap_flatMap]
  cases v.recordType? <;> rfl

theorem typeNames_of_isFlat {v : Value} (flat : v.isFlat = true) : v.typeNames = [] := by
  rw [typeNames_eq, contents_of_isFlat flat]
  cases v <;> simp_all [isFlat, recordType?]

theorem eq_null_of_type? {v : Value} (untyped : v.type? = none) : v = null := by
  cases v <;> first | rfl | cases untyped

theorem isNull_of_ne_null {v : Value} (present : v ≠ null) : v.isNull = false := by
  cases v <;> first | rfl | exact absurd rfl present

theorem deepest_le_iff {n : Nat} {vs : List Value} :
    deepest vs ≤ n ↔ ∀ v ∈ vs, v.nesting ≤ n := by
  induction vs with
  | nil => simp [deepest]
  | cons v vs ih =>
    rw [deepest, Nat.max_le, ih, List.forall_mem_cons]

theorem deepestMember_eq (es : Members) : deepestMember es = deepest (es.map Prod.snd) := by
  induction es with
  | nil => rfl
  | cons e es ih => simp [deepestMember, deepest, ih]

theorem nesting_of_contents {v : Value} (container : v.isFlat = false) :
    v.nesting = deepest v.contents + 1 := by
  cases v <;> simp_all [isFlat, nesting, contents, deepestMember_eq]

/-- A container takes up one level before its contents do. -/
theorem add_nesting_le_iff {v : Value} (container : v.isFlat = false) {depth limit : Nat} :
    depth + v.nesting ≤ limit ↔
      depth < limit ∧ ∀ w ∈ v.contents, depth + 1 + w.nesting ≤ limit := by
  have deeper : v.nesting = deepest v.contents + 1 := nesting_of_contents container
  have within : deepest v.contents ≤ limit - (depth + 1) ↔ _ := deepest_le_iff
  constructor
  · intro shallow
    refine ⟨by omega, fun w mem => ?_⟩
    have := within.mp (by omega) w mem
    omega
  · intro ⟨room, shallow⟩
    have := within.mpr fun w mem => by have := shallow w mem; omega
    omega

end Value

end SharedObjects
