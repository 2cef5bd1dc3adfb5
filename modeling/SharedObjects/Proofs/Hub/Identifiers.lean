import Mathlib.Data.List.Forall2
import Mathlib.Data.List.Perm.Basic
import SharedObjects.Hub.Identifiers
set_option autoImplicit false

namespace SharedObjects

namespace Identifiers

variable {ids after : Identifiers} {first : UInt32} {used : List ObjectId} {id : ObjectId}
  {now : Instant}

def waiting (ids : Identifiers) : List ObjectId := ids.retired.map Prod.fst

@[simp] theorem waiting_retire (ids : Identifiers) (now : Instant) (id : ObjectId) :
    (ids.retire now id).waiting = ids.waiting ++ [id] := by simp [waiting, retire]

/-- The identifiers in use and those that wait are all those from the first up to the next. -/
structure Accounts (ids : Identifiers) (first : UInt32) (used : List ObjectId) : Prop where
  distinct : (used ++ ids.waiting).Nodup
  first_le : first ≤ ids.next
  given_iff : ∀ id, id ∈ used ++ ids.waiting ↔ first ≤ id.number ∧ id.number < ids.next

theorem one_le_max (n : UInt32) : 1 ≤ max n 1 := by
  have least : max n 1 = if n ≤ 1 then 1 else n := rfl
  rw [least]
  split
  · exact UInt32.le_refl _
  · exact UInt32.le_of_lt (UInt32.not_le.mp ‹_›)

theorem Accounts.ne_none (accounts : ids.Accounts (max first 1) used) (mem : id ∈ used) :
    id ≠ .none := by
  have from_ := ((accounts.given_iff id).mp (List.mem_append_left _ mem)).1
  rintro rfl
  have one : (1 : UInt32) ≤ 0 := UInt32.le_trans (one_le_max first) from_
  simp at one

theorem accounts_ofConfig (c : HubConfig) :
    (ofConfig c).Accounts (max c.firstObjectId 1) [] where
  distinct := List.nodup_nil
  first_le := UInt32.le_refl _
  given_iff := fun id => by simp [ofConfig, waiting]

theorem toNat_succ {n : UInt32} (room : n ≠ last) : (n + 1).toNat = n.toNat + 1 := by
  have small : n.toNat ≠ 4294967295 := fun same => room (UInt32.toNat_inj.mp same)
  have bound := n.toNat_lt
  rw [UInt32.toNat_add]
  exact Nat.mod_eq_of_lt (by simp; omega)

theorem lt_succ_iff {n m : UInt32} (room : n ≠ last) : m < n + 1 ↔ m < n ∨ m = n := by
  rw [UInt32.lt_iff_toNat_lt, UInt32.lt_iff_toNat_lt, ← UInt32.toNat_inj, toNat_succ room]
  omega

theorem counted_succ_iff {n : UInt32} (first_le : first ≤ n) (room : n ≠ last) :
    first ≤ id.number ∧ id.number < n + 1 ↔ id = ⟨n⟩ ∨ (first ≤ id.number ∧ id.number < n) := by
  have named : id = ⟨n⟩ ↔ id.number = n := by
    cases id
    simp
  rw [named, lt_succ_iff room]
  constructor
  · rintro ⟨from_, below | same⟩
    · exact .inr ⟨from_, below⟩
    · exact .inl same
  · rintro (same | ⟨from_, below⟩)
    · exact ⟨same ▸ first_le, .inr same⟩
    · exact ⟨from_, .inl below⟩

theorem fresh_eq_some_iff : ids.fresh = some (id, after) ↔
    ids.next ≠ last ∧ id = ⟨ids.next⟩ ∧ after = { ids with next := ids.next + 1 } := by
  unfold fresh
  split <;> simp_all [eq_comm]

/-- What is handed out has waited longest, and out the grace period, or else is the next fresh
one. -/
theorem allocate_cases (allocated : ids.allocate now = some (id, after)) :
    (∃ released rest, ids.grace ≤ now.since released ∧ ids.retired = (id, released) :: rest ∧
      after = { ids with retired := rest }) ∨
    (ids.next ≠ last ∧ id = ⟨ids.next⟩ ∧ after = { ids with next := ids.next + 1 }) := by
  unfold allocate at allocated
  split at allocated
  · exact .inr (fresh_eq_some_iff.mp allocated)
  · rename_i oldest released rest retired
    split at allocated
    · rename_i elapsed
      cases allocated
      exact .inl ⟨released, rest, elapsed, retired, rfl⟩
    · exact .inr (fresh_eq_some_iff.mp allocated)

theorem Accounts.allocate (accounts : ids.Accounts first used)
    (allocated : ids.allocate now = some (id, after)) :
    id ∉ used ∧ after.Accounts first (used ++ [id]) := by
  obtain ⟨distinct, first_le, given_iff⟩ := accounts
  rcases allocate_cases allocated with ⟨released, rest, -, retired, rfl⟩ | ⟨room, rfl, rfl⟩
  · have waiting : ids.waiting = id :: rest.map Prod.fst := by simp [Identifiers.waiting, retired]
    rw [waiting] at distinct given_iff
    have unused : id ∉ used := fun mem =>
      (List.nodup_append.mp distinct).2.2 id mem id (.head _) rfl
    refine ⟨unused, ?_, first_le, ?_⟩
    · simpa [Identifiers.waiting] using distinct
    · simpa [Identifiers.waiting] using given_iff
  · have unseen : (⟨ids.next⟩ : ObjectId) ∉ used ++ ids.waiting := fun mem =>
      UInt32.lt_irrefl _ ((given_iff _).mp mem).2
    have moved : ((used ++ [(⟨ids.next⟩ : ObjectId)]) ++ ids.waiting).Perm
        (⟨ids.next⟩ :: (used ++ ids.waiting)) := by
      rw [List.append_assoc]
      exact List.perm_middle
    refine ⟨fun mem => unseen (List.mem_append_left _ mem), ?_, ?_, fun id => ?_⟩
    · exact moved.nodup_iff.mpr (List.nodup_cons.mpr ⟨unseen, distinct⟩)
    · exact UInt32.le_of_lt ((lt_succ_iff room).mpr
        ((UInt32.lt_or_eq_of_le first_le)))
    · exact moved.mem_iff.trans (by
        rw [List.mem_cons, given_iff, counted_succ_iff first_le room])

theorem Accounts.retire (accounts : ids.Accounts first used) (mem : id ∈ used) (now : Instant) :
    (ids.retire now id).Accounts first (used.filter (· ≠ id)) := by
  obtain ⟨distinct, first_le, given_iff⟩ := accounts
  have once : used.Nodup := (List.nodup_append.mp distinct).1
  have erased : used.filter (· ≠ id) = used.erase id := by
    rw [once.erase_eq_filter]
    exact List.filter_congr fun other _ => by by_cases same : other = id <;> simp [same]
  have moved : (used.filter (· ≠ id) ++ (ids.retire now id).waiting).Perm
      (used ++ ids.waiting) := by
    rw [waiting_retire, erased, ← List.append_assoc]
    exact (List.perm_append_singleton _ _).trans
      ((List.perm_cons_erase mem).symm.append_right ids.waiting)
  exact ⟨moved.nodup_iff.mpr distinct, first_le, fun other =>
    moved.mem_iff.trans (given_iff other)⟩

/-- Those of the identifiers that have been seen before, among these or earlier. -/
def again (seen : List ObjectId) : List (ObjectId × Instant) → List (ObjectId × Instant)
  | [] => []
  | g :: rest => if g.1 ∈ seen then g :: again seen rest else again (g.1 :: seen) rest

theorem again_of_mem {seen : List ObjectId} (old : id ∈ seen)
    (given : List (ObjectId × Instant)) :
    again seen ((id, now) :: given) = (id, now) :: again seen given := if_pos old

theorem again_of_not_mem {seen : List ObjectId} (unseen : id ∉ seen)
    (given : List (ObjectId × Instant)) :
    again seen ((id, now) :: given) = again (id :: seen) given := if_neg unseen

theorem nodup_of_again {seen : List ObjectId} {given : List (ObjectId × Instant)}
    (never : again seen given = []) :
    (given.map Prod.fst).Nodup ∧ ∀ id ∈ given.map Prod.fst, id ∉ seen := by
  induction given generalizing seen with
  | nil => exact ⟨List.nodup_nil, nofun⟩
  | cons g rest ih =>
    unfold again at never
    split at never
    · cases never
    · rename_i unseen
      obtain ⟨once, apart⟩ := ih never
      refine ⟨List.nodup_cons.mpr ⟨fun mem => apart g.1 mem (.head _), once⟩, ?_⟩
      exact List.forall_mem_cons.mpr ⟨unseen, fun other mem old => apart other mem (.tail _ old)⟩

theorem mem_of_again {seen : List ObjectId} {given : List (ObjectId × Instant)}
    {g : ObjectId × Instant} (mem : g ∈ again seen given) : g ∈ given := by
  induction given generalizing seen with
  | nil => cases mem
  | cons g' rest ih =>
    unfold again at mem
    split at mem
    · exact (List.mem_cons.mp mem).elim (fun same => same ▸ .head _) fun later =>
        .tail _ (ih later)
    · exact .tail _ (ih mem)

/-- An identifier was released, and given again when the grace period was over. -/
def WaitedOut (grace : Nat) (released given : ObjectId × Instant) : Prop :=
  released.1 = given.1 ∧ grace ≤ given.2.since released.2

/-- What identifiers come to when some are handed out and others taken back, in whatever order;
those seen are all that were handed out before. -/
structure Leads (ids : Identifiers) (seen : List ObjectId) (given taken : List (ObjectId × Instant))
    (final : Identifiers) : Prop where
  grace : final.grace = ids.grace
  counted : ids.next.toNat + given.length = final.next.toNat + (again seen given).length
  /-- The queue is served from its front. -/
  queued : ∃ served, ids.retired ++ taken = served ++ final.retired ∧
    List.Forall₂ (WaitedOut ids.grace) served (again seen given)

/-- All that have been counted up so far were seen, and no others. -/
def Seen (ids : Identifiers) (first : UInt32) (seen : List ObjectId) : Prop :=
  ∀ id : ObjectId, id ∈ seen ↔ first ≤ id.number ∧ id.number < ids.next

variable {seen : List ObjectId} {given taken : List (ObjectId × Instant)} {final : Identifiers}

theorem Leads.refl (ids : Identifiers) (seen : List ObjectId) : ids.Leads seen [] [] ids where
  grace := rfl
  counted := rfl
  queued := ⟨[], by simp, .nil⟩

/-- What is handed out was seen before exactly if it waited to be used again. -/
theorem Leads.allocate (accounts : ids.Accounts first used) (counts : ids.Seen first seen)
    (allocated : ids.allocate now = some (id, after))
    (rest : ∀ seen, after.Seen first seen → after.Leads seen given taken final) :
    ids.Leads seen ((id, now) :: given) taken final := by
  -- What waited was counted up long ago; a fresh one has never been seen.
  rcases allocate_cases allocated with
    ⟨released, waiting, elapsed, retired, rfl⟩ | ⟨room, rfl, rfl⟩
  · have old : id ∈ seen :=
      (counts id).mpr ((accounts.given_iff id).mp (by simp [Identifiers.waiting, retired]))
    obtain ⟨grace, counted, served, queued, waited⟩ := rest seen counts
    refine ⟨grace, ?_, (id, released) :: served, ?_, ?_⟩
    · dsimp only at counted
      rw [again_of_mem old, List.length_cons, List.length_cons]
      omega
    · simp only [retired, List.cons_append, queued]
    · rw [again_of_mem old]
      exact .cons ⟨rfl, elapsed⟩ waited
  · have unseen : (⟨ids.next⟩ : ObjectId) ∉ seen := fun mem =>
      UInt32.lt_irrefl _ ((counts _).mp mem).2
    have more : Seen { ids with next := ids.next + 1 } first (⟨ids.next⟩ :: seen) := fun other => by
      rw [List.mem_cons, counts, counted_succ_iff accounts.first_le room]
    obtain ⟨grace, counted, queued⟩ := rest _ more
    have next : (ids.next + 1).toNat = ids.next.toNat + 1 := toNat_succ room
    refine ⟨grace, ?_, ?_⟩
    · dsimp only at counted
      rw [again_of_not_mem unseen, List.length_cons]
      omega
    · rwa [again_of_not_mem unseen]

theorem Leads.retire (rest : (ids.retire now id).Leads seen given taken final) :
    ids.Leads seen given ((id, now) :: taken) final where
  grace := rest.grace
  counted := rest.counted
  queued := by simpa [Identifiers.retire] using rest.queued

theorem Leads.nodup (leads : ids.Leads [] given taken final) (none : ids.retired = [])
    (never : ∀ r ∈ taken, ∀ g ∈ given, g.2.since r.2 < ids.grace) :
    (given.map Prod.fst).Nodup := by
  obtain ⟨served, queued, waited⟩ := leads.queued
  rw [none, List.nil_append] at queued
  have fresh : again [] given = [] := by
    cases found : again [] given with
    | nil => rfl
    | cons g rest =>
      rw [found] at waited
      cases waited with
      | @cons r _ _ _ first _ =>
        have released : r ∈ taken := by simp [queued]
        have handed : g ∈ again [] given := by simp [found]
        exact absurd first.2 (Nat.not_le.mpr (never r released g (mem_of_again handed)))
  exact (nodup_of_again fresh).1

end Identifiers

end SharedObjects
