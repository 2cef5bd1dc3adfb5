set_option autoImplicit false

namespace SharedObjects

/-- Keys with their values, oldest first. -/
abbrev Entries (κ ν : Type) := List (κ × ν)

namespace Entries

variable {κ ν : Type} [DecidableEq κ]

def keys (es : Entries κ ν) : List κ := es.map Prod.fst

def get? (k : κ) : Entries κ ν → Option ν
  | [] => none
  | (k', v) :: es => if k' = k then some v else get? k es

def contains (k : κ) (es : Entries κ ν) : Bool := (get? k es).isSome

def put (k : κ) (v : ν) : Entries κ ν → Entries κ ν
  | [] => [(k, v)]
  | (k', v') :: es => if k' = k then (k, v) :: es else (k', v') :: put k v es

def erase (k : κ) (es : Entries κ ν) : Entries κ ν := es.filter (fun e => e.1 ≠ k)

def Distinct (es : Entries κ ν) : Prop := es.keys.Nodup

@[simp] theorem get?_nil (k : κ) : get? k ([] : Entries κ ν) = none := rfl

@[simp] theorem get?_put_self (k : κ) (v : ν) (es : Entries κ ν) :
    get? k (put k v es) = some v := by
  induction es with
  | nil => simp [put, get?]
  | cons e es ih => by_cases h : e.1 = k <;> simp [put, get?, h, ih]

theorem get?_put_ne {k k' : κ} (other : k' ≠ k) (v : ν) (es : Entries κ ν) :
    get? k' (put k v es) = get? k' es := by
  induction es with
  | nil => simp [put, get?, Ne.symm other]
  | cons e es ih =>
    by_cases h : e.1 = k
    · simp [put, get?, h, Ne.symm other]
    · by_cases h' : e.1 = k' <;> simp [put, get?, h, h', ih]
      simp [← h', h, get?]

theorem put_put (k : κ) (v w : ν) (es : Entries κ ν) : put k w (put k v es) = put k w es := by
  induction es with
  | nil => simp [put]
  | cons e es ih => by_cases h : e.1 = k <;> simp [put, h, ih]

theorem put_of_get? {k : κ} {v : ν} {es : Entries κ ν} (held : get? k es = some v) :
    put k v es = es := by
  induction es with
  | nil => simp at held
  | cons e es ih =>
    obtain ⟨k', w⟩ := e
    by_cases h : k' = k
    · obtain rfl : w = v := by simpa [get?, h] using held
      simp [put, h]
    · simp [put, h, ih (by simpa [get?, h] using held)]

theorem mem_of_get? {k : κ} {v : ν} {es : Entries κ ν} (held : get? k es = some v) :
    (k, v) ∈ es := by
  induction es with
  | nil => cases held
  | cons e es ih =>
    by_cases here : e.1 = k
    · obtain rfl : e.2 = v := by simpa [get?, here] using held
      simp [← here]
    · exact List.mem_cons_of_mem _ (ih (by simpa [get?, here] using held))

theorem mem_keys_iff {k : κ} {es : Entries κ ν} : k ∈ keys es ↔ contains k es = true := by
  induction es with
  | nil => simp [keys, contains]
  | cons e es ih =>
    by_cases h : e.1 = k
    · simp [keys, contains, get?, h]
    · simp only [contains, keys] at ih
      simp [keys, contains, get?, h, Ne.symm h, ← ih]

theorem keys_put (k : κ) (v : ν) (es : Entries κ ν) :
    keys (put k v es) = if contains k es then keys es else keys es ++ [k] := by
  induction es with
  | nil => simp [put, keys, contains]
  | cons e es ih =>
    by_cases h : e.1 = k
    · simp [put, keys, contains, get?, h]
    · simp only [keys, contains] at ih
      simp only [put, keys, contains, get?, h, if_false, List.map_cons, ih]
      split <;> simp_all

theorem Distinct.put {k : κ} {es : Entries κ ν} (distinct : es.Distinct) (v : ν) :
    (put k v es).Distinct := by
  unfold Distinct
  rw [keys_put]
  split
  · exact distinct
  · rename_i absent
    rw [List.nodup_append]
    refine ⟨distinct, by simp, ?_⟩
    intro a mem b single same
    simp only [List.mem_singleton] at single
    subst single same
    exact absent (mem_keys_iff.mp mem)

theorem get?_erase (k k' : κ) (es : Entries κ ν) :
    get? k' (erase k es) = if k' = k then none else get? k' es := by
  induction es with
  | nil => simp [erase]
  | cons e es ih =>
    unfold erase at ih ⊢
    by_cases h : e.1 = k
    · simp only [List.filter_cons, h, ne_eq, not_true_eq_false, decide_false, Bool.false_eq_true,
        if_false, ih]
      by_cases h' : k' = k
      · simp [h']
      · simp [h', get?, h, Ne.symm h']
    · simp only [List.filter_cons, h, ne_eq, not_false_eq_true, decide_true, if_true]
      by_cases h' : e.1 = k'
      · have : k' ≠ k := fun same => h (h'.trans same)
        simp [get?, h', this]
      · simpa [get?, h'] using ih

theorem Distinct.erase {es : Entries κ ν} (distinct : es.Distinct) (k : κ) :
    (erase k es).Distinct :=
  List.Nodup.sublist (List.Sublist.map Prod.fst List.filter_sublist) distinct

theorem keys_put_of_get? {k : κ} {v : ν} {es : Entries κ ν} (held : get? k es = some v) (w : ν) :
    keys (put k w es) = keys es := by
  simp [keys_put, contains, held]

theorem keys_erase (k : κ) (es : Entries κ ν) : keys (erase k es) = (keys es).filter (· ≠ k) := by
  simp only [keys, erase, List.filter_map]
  rfl

theorem mem_keys_of_get? {k : κ} {v : ν} {es : Entries κ ν} (held : get? k es = some v) :
    k ∈ keys es :=
  mem_keys_iff.mpr (by simp [contains, held])

theorem get?_eq_none {k : κ} {es : Entries κ ν} (absent : k ∉ keys es) : get? k es = none := by
  cases held : get? k es with
  | none => rfl
  | some v => exact absurd (mem_keys_of_get? held) absent

theorem Distinct.mem_iff {k : κ} {v : ν} {es : Entries κ ν} (distinct : es.Distinct) :
    (k, v) ∈ es ↔ get? k es = some v := by
  induction es with
  | nil => simp
  | cons entry rest ih =>
    obtain ⟨k', w⟩ := entry
    obtain ⟨absent, distinct⟩ := List.nodup_cons.mp distinct
    by_cases same : k' = k
    · subst same
      have elsewhere : (k', v) ∉ rest := fun mem => absent (List.mem_map.mpr ⟨_, mem, rfl⟩)
      simp [get?, elsewhere, eq_comm]
    · simp [get?, same, Ne.symm same, ih distinct]

section Mapping

variable {ω : Type} (f : ν → ω) (k : κ) (es : Entries κ ν)

theorem get?_map : get? k (es.map fun e => (e.1, f e.2)) = (get? k es).map f := by
  induction es with
  | nil => rfl
  | cons e es ih => by_cases h : e.1 = k <;> simp [get?, h, ih]

theorem map_put (v : ν) :
    (put k v es).map (fun e => (e.1, f e.2)) = put k (f v) (es.map fun e => (e.1, f e.2)) := by
  induction es with
  | nil => rfl
  | cons e es ih => by_cases h : e.1 = k <;> simp [put, h, ih]

theorem map_erase :
    (erase k es).map (fun e => (e.1, f e.2)) = erase k (es.map fun e => (e.1, f e.2)) := by
  simp [erase, List.filter_map, Function.comp_def]

end Mapping

end Entries

end SharedObjects
