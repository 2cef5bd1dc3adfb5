import Mathlib.Data.List.Nodup
import SharedObjects.Hub.Subscribers
set_option autoImplicit false

namespace SharedObjects.Subscribers

variable {s : Subscribers} {sub : Subscription} {e other : EndpointId}

theorem mem_endpoints_add : other ∈ (s.add e).2.endpoints ↔ other ∈ s.endpoints ∨ other = e := by
  unfold add
  split
  · rename_i there
    have there : e ∈ s.endpoints := by simpa [contains] using there
    exact ⟨.inl, fun mem => mem.elim id fun same => same ▸ there⟩
  · simp [endpoints]

theorem mem_endpoints_remove :
    other ∈ (s.remove e).2.endpoints ↔ other ∈ s.endpoints ∧ other ≠ e := by
  simp only [remove, cancel, endpoints, List.mem_map, List.mem_filter]
  grind

theorem isActive_iff : s.isActive sub = true ↔ s.flags[sub.flag]? = some true := by
  rw [isActive, Array.getD_eq_getD_getElem?]
  cases s.flags[sub.flag]? <;> simp

theorem getElem?_lowered (flags : Array Bool) (subs : List Subscription) (flag : Nat) :
    (lowered flags subs)[flag]? =
      flags[flag]?.map fun up => up && !subs.any fun sub => sub.flag = flag := by
  induction subs generalizing flags with
  | nil => simp [lowered]
  | cons sub subs ih =>
    rw [lowered, List.foldl_cons, ← lowered, ih, Array.getElem?_setIfInBounds]
    by_cases same : sub.flag = flag
    · subst same
      by_cases within : sub.flag < flags.size <;> simp [within]
    · simp [same]

theorem cancel_eq_self {leaves : Subscription → Bool}
    (nobody : ∀ sub ∈ s.standing, leaves sub = false) : s.cancel leaves = s := by
  have stay : s.standing.filter (fun sub => !leaves sub) = s.standing :=
    List.filter_eq_self.mpr fun sub mem => by simp [nobody sub mem]
  have none : s.standing.filter leaves = [] :=
    List.filter_eq_nil_iff.mpr fun sub mem => by simp [nobody sub mem]
  rw [cancel, stay, none]
  rfl

theorem add_of_mem {e : EndpointId} (there : e ∈ s.endpoints) : s.add e = (false, s) := by
  simp [add, contains, there]

theorem add_of_not_mem {e : EndpointId} (absent : e ∉ s.endpoints) : s.add e =
    (true, ⟨s.standing ++ [⟨e, s.flags.size⟩], s.flags.push true⟩) :=
  if_neg (by simpa [contains] using absent)

theorem remove_of_not_mem {e : EndpointId} (absent : e ∉ s.endpoints) :
    s.remove e = (false, s) := by
  have nobody (sub : Subscription) (mem : sub ∈ s.standing) :
      decide (sub.endpoint = e) = false :=
    decide_eq_false fun same => absent (same ▸ List.mem_map_of_mem mem)
  have unlisted : s.contains e = false := by simpa [contains] using absent
  rw [remove, unlisted, cancel_eq_self nobody]

/-- No endpoint stands twice, and every subscription that stands has a flag of its own, which is
up. -/
structure Tidy (s : Subscribers) : Prop where
  distinct : s.endpoints.Nodup
  own : (s.standing.map Subscription.flag).Nodup
  up : ∀ sub ∈ s.standing, s.flags[sub.flag]? = some true

theorem tidy_none : none.Tidy := ⟨List.nodup_nil, List.nodup_nil, nofun⟩

theorem Tidy.flags_cancel (tidy : s.Tidy) (leaves : Subscription → Bool)
    (there : sub ∈ s.standing) : (s.cancel leaves).flags[sub.flag]? = some (!leaves sub) := by
  have lowers :
      (s.standing.filter leaves).any (fun other => other.flag = sub.flag) = leaves sub := by
    rw [Bool.eq_iff_iff, List.any_eq_true]
    constructor
    · rintro ⟨other, gone, same⟩
      obtain ⟨mem, gone⟩ := List.mem_filter.mp gone
      obtain rfl := List.inj_on_of_nodup_map tidy.own mem there (of_decide_eq_true same)
      exact gone
    · exact fun leaves => ⟨sub, List.mem_filter.mpr ⟨there, leaves⟩, by simp⟩
  rw [cancel, getElem?_lowered, tidy.up sub there, lowers]
  rfl

theorem Tidy.add (tidy : s.Tidy) (e : EndpointId) : (s.add e).2.Tidy := by
  by_cases there : e ∈ s.endpoints
  · rwa [add_of_mem there]
  have below (sub : Subscription) (mem : sub ∈ s.standing) : sub.flag < s.flags.size :=
    (Array.getElem?_eq_some_iff.mp (tidy.up sub mem)).1
  rw [add_of_not_mem there]
  constructor
  · simpa [endpoints, List.nodup_append] using ⟨tidy.distinct, fun sub mem same =>
      there (same ▸ List.mem_map_of_mem mem)⟩
  · simpa [List.nodup_append] using
      ⟨tidy.own, fun sub mem same => absurd (below sub mem) (by omega)⟩
  · intro sub mem
    rcases List.mem_append.mp mem with old | new
    · rw [Array.getElem?_push, if_neg (Nat.ne_of_lt (below sub old)), tidy.up sub old]
    · obtain rfl := List.mem_singleton.mp new
      simp

theorem Tidy.cancel (tidy : s.Tidy) (leaves : Subscription → Bool) : (s.cancel leaves).Tidy := by
  have stay : (s.standing.filter fun sub => !leaves sub).Sublist s.standing :=
    List.filter_sublist
  refine ⟨tidy.distinct.sublist (stay.map _), tidy.own.sublist (stay.map _), ?_⟩
  intro sub mem
  obtain ⟨there, stays⟩ := List.mem_filter.mp mem
  rw [tidy.flags_cancel leaves there, stays]

theorem Tidy.remove (tidy : s.Tidy) (e : EndpointId) : (s.remove e).2.Tidy := tidy.cancel _

/-- All that stand are active, so a round of messages goes to every one of them. -/
theorem Tidy.active_eq (tidy : s.Tidy) : s.active = s.endpoints := by
  have all : s.snapshot.filter s.isActive = s.standing :=
    List.filter_eq_self.mpr fun sub mem => isActive_iff.mpr (tidy.up sub mem)
  rw [active, all, endpoints]

end SharedObjects.Subscribers
