import SharedObjects.Members
set_option autoImplicit false

namespace SharedObjects

namespace Entries

variable {κ ν : Type} {k : κ} {v w : ν} {es fs before behind : Entries κ ν}

theorem split_of_mem_keys (mem : k ∈ keys es) :
    ∃ before v behind, es = before ++ (k, v) :: behind := by
  obtain ⟨⟨_, v⟩, there, rfl⟩ := List.mem_map.mp mem
  obtain ⟨before, behind, rfl⟩ := List.append_of_mem there
  exact ⟨before, v, behind, rfl⟩

theorem Distinct.elsewhere (distinct : Distinct (before ++ (k, v) :: behind)) :
    k ∉ keys before ∧ k ∉ keys behind := by
  simp only [Distinct, keys, List.map_append, List.map_cons, List.nodup_append,
    List.nodup_cons] at distinct
  exact ⟨fun mem => distinct.2.2 k mem k (by simp) rfl, distinct.2.1.1⟩

variable [DecidableEq κ]

theorem erase_split (distinct : Distinct (before ++ (k, v) :: behind)) :
    erase k (before ++ (k, v) :: behind) = before ++ behind := by
  have others {es : Entries κ ν} (absent : k ∉ keys es) : es.filter (fun e => e.1 ≠ k) = es :=
    List.filter_eq_self.mpr fun e mem => by
      simpa using fun same => absent (List.mem_map.mpr ⟨e, mem, same⟩)
  obtain ⟨first, last⟩ := distinct.elsewhere
  rw [erase, List.filter_append, others first, List.filter_cons_of_neg (by simp), others last]

theorem put_split (absent : k ∉ keys before) :
    put k w (before ++ (k, v) :: behind) = before ++ (k, w) :: behind := by
  induction before with
  | nil => simp [put]
  | cons e before ih =>
    simp only [keys, List.map_cons, List.mem_cons, not_or] at absent
    simp [put, Ne.symm absent.1, ih absent.2]

theorem put_of_not_mem_keys (absent : k ∉ keys es) : put k v es = es ++ [(k, v)] := by
  induction es with
  | nil => rfl
  | cons e es ih =>
    simp only [keys, List.map_cons, List.mem_cons, not_or] at absent
    simp [put, Ne.symm absent.1, ih absent.2]

theorem Distinct.get?_eq_of_perm (distinct : es.Distinct) (perm : es.Perm fs) (k : κ) :
    get? k es = get? k fs := by
  have distinct' : fs.Distinct := (perm.map Prod.fst).nodup_iff.mp distinct
  ext v
  rw [← distinct.mem_iff, ← distinct'.mem_iff, perm.mem_iff]

/-- What stands under a key, in front of everything else, is all there is. -/
theorem Distinct.perm_cons_erase (distinct : es.Distinct) (held : get? k es = some v) :
    ((k, v) :: Entries.erase k es).Perm es := by
  obtain ⟨before, behind, rfl⟩ := List.append_of_mem (distinct.mem_iff.mpr held)
  rw [erase_split distinct]
  exact List.perm_middle.symm

end Entries

namespace Members

variable {k : Key} {v : Value} {members after : Members}

theorem add_eq (k : Key) (v : Value) (members : Members) : add k v members =
    if k ∈ members.keys then .error (.duplicateElement k.label) else .ok (members.put k v) := by
  simp only [add, Entries.mem_keys_iff]
  split
  · rfl
  · rename_i absent
    rw [← Entries.mem_keys_iff] at absent
    rw [Entries.put_of_not_mem_keys absent]

theorem remove_eq (k : Key) (members : Members) : remove k members =
    if k ∈ members.keys then .ok (members.erase k) else .error (.notFound k.label) := by
  simp only [remove, Entries.mem_keys_iff]

theorem update_eq (k : Key) (v : Value) (members : Members) : update k v members =
    if k ∈ members.keys then .ok (members.put k v) else .error (.notFound k.label) := by
  simp only [update, Entries.mem_keys_iff]

theorem distinct_of_apply {change : Change} (distinct : members.Distinct)
    (applied : apply change members = .ok after) : after.Distinct := by
  cases change with
  | added k v =>
    rw [apply, add_eq] at applied
    split at applied <;> cases applied
    exact distinct.put v
  | removed k =>
    rw [apply, remove_eq] at applied
    split at applied <;> cases applied
    exact distinct.erase k
  | updated k v =>
    rw [apply, update_eq] at applied
    split at applied <;> cases applied
    exact distinct.put v

theorem add_eq_ok_iff : add k v members = .ok after ↔
    k ∉ Entries.keys members ∧ after = members ++ [(k, v)] := by
  rw [Entries.mem_keys_iff, add]
  split
  · simp [*]
  · simp [*, eq_comm]

theorem add_of_distinct {es : Members} (distinct : Entries.Distinct (members ++ (k, v) :: es)) :
    add k v members = .ok (members ++ [(k, v)]) :=
  add_eq_ok_iff.mpr ⟨distinct.elsewhere.1, rfl⟩

theorem ofList_of_distinct (distinct : members.Distinct) : ofList members = .ok members := by
  have onto (done rest : Members) (distinct : Entries.Distinct (done ++ rest)) :
      rest.foldlM (fun members e => add e.1 e.2 members) done = .ok (done ++ rest) := by
    induction rest generalizing done with
    | nil => simp [Pure.pure, Except.pure]
    | cons e rest ih =>
      rw [List.foldlM_cons, add_of_distinct distinct]
      have behind := ih (done ++ [e]) (by simpa using distinct)
      rwa [List.append_assoc] at behind
  exact onto [] members distinct

theorem remove_eq_ok_iff (distinct : members.Distinct) : remove k members = .ok after ↔
    ∃ before v behind, members = before ++ (k, v) :: behind ∧ after = before ++ behind := by
  unfold remove
  constructor
  · intro removed
    split at removed <;> cases removed
    rename_i present
    obtain ⟨before, v, behind, rfl⟩ := Entries.split_of_mem_keys (Entries.mem_keys_iff.mpr present)
    exact ⟨before, v, behind, rfl, Entries.erase_split distinct⟩
  · rintro ⟨before, v, behind, rfl, rfl⟩
    have present : k ∈ Entries.keys (before ++ (k, v) :: behind) := by simp [Entries.keys]
    rw [if_pos (Entries.mem_keys_iff.mp present), Entries.erase_split distinct]

theorem update_eq_ok_iff (distinct : members.Distinct) : update k v members = .ok after ↔
    ∃ before old behind, members = before ++ (k, old) :: behind ∧
      after = before ++ (k, v) :: behind := by
  unfold update
  constructor
  · intro updated
    split at updated <;> cases updated
    rename_i present
    obtain ⟨before, old, behind, rfl⟩ :=
      Entries.split_of_mem_keys (Entries.mem_keys_iff.mpr present)
    exact ⟨before, old, behind, rfl, Entries.put_split distinct.elsewhere.1⟩
  · rintro ⟨before, old, behind, rfl, rfl⟩
    have present : k ∈ Entries.keys (before ++ (k, old) :: behind) := by simp [Entries.keys]
    rw [if_pos (Entries.mem_keys_iff.mp present), Entries.put_split distinct.elsewhere.1]

end Members

end SharedObjects
