import Mathlib.Data.List.Forall2
import Mathlib.Data.List.Perm.Subperm
import SharedObjects.Proofs.Members
import SharedObjects.Proofs.Value.Equality
/-!
When two values say the same, told by what stands where: lists and records do if they agree at every
place, and sets if they agree under every key. So saying the same goes both ways and on, as long as
no set holds a key twice.
-/
set_option autoImplicit false

namespace SharedObjects

theorem forall₂_iff_getElem? {α β : Type} {R : α → β → Prop} {as : List α} {bs : List β} :
    List.Forall₂ R as bs ↔ ∀ i : Nat, Option.Rel R as[i]? bs[i]? := by
  constructor
  · intro along
    induction along with
    | nil => exact fun _ => .none
    | cons first _ ih =>
      intro i
      cases i with
      | zero => exact .some first
      | succ i => exact ih i
  · intro along
    induction as generalizing bs with
    | nil =>
      cases bs with
      | nil => exact .nil
      | cons b bs => exact nomatch along 0
    | cons a as ih =>
      cases bs with
      | nil => exact nomatch along 0
      | cons b bs =>
        cases along 0 with
        | some first => exact .cons first (ih fun i => along (i + 1))

namespace Entries

variable {κ ν : Type} {es fs : Entries κ ν}

theorem Distinct.mem_keys_of_covered (distinct : es.Distinct) (long : es.length = fs.length)
    (covered : ∀ k ∈ es.keys, k ∈ fs.keys) {k : κ} (mem : k ∈ fs.keys) : k ∈ es.keys := by
  have long : fs.keys.length ≤ es.keys.length := by simp [keys, long]
  have perm := (List.subperm_of_subset distinct covered).perm_of_length_le long
  exact perm.mem_iff.mpr mem

variable [DecidableEq κ]

theorem exists_perm_along {R : ν → ν → Prop} (distinct : es.Distinct) (distinct' : fs.Distinct)
    (agree : ∀ k, Option.Rel R (get? k es) (get? k fs)) :
    ∃ gs, gs.Perm fs ∧ List.Forall₂ (fun e g => e.1 = g.1 ∧ R e.2 g.2) es gs := by
  induction es generalizing fs with
  | nil =>
    cases fs with
    | nil => exact ⟨[], .refl _, .nil⟩
    | cons f fs =>
      have first := agree f.1
      simp [get?] at first
  | cons e es ih =>
    obtain ⟨k, v⟩ := e
    obtain ⟨absent, distinct⟩ := List.nodup_cons.mp distinct
    have here := agree k
    cases held : get? k fs with
    | none => simp [get?, held] at here
    | some w =>
      have related : R v w := by simpa [get?, held] using here
      -- With the first key gone from both sides, what remains agrees under every key still.
      have rest (k' : κ) : Option.Rel R (get? k' es) (get? k' (erase k fs)) := by
        rw [get?_erase]
        by_cases same : k' = k
        · subst same
          rw [if_pos rfl, get?_eq_none absent]
          exact .none
        · rw [if_neg same]
          simpa [get?, Ne.symm same] using agree k'
      obtain ⟨gs, perm, along⟩ := ih distinct (distinct'.erase k) rest
      exact ⟨(k, w) :: gs, (perm.cons _).trans (distinct'.perm_cons_erase held),
        .cons ⟨rfl, related⟩ along⟩

end Entries

namespace Value

variable {u v w : Value} {vs ws : List Value} {es fs : Members}

abbrev Same (v w : Value) : Prop := v.same w = true

abbrev Concur : Option Value → Option Value → Prop := Option.Rel Same

theorem Concur.imp {R : Value → Value → Prop} {v? w? : Option Value} (agree : Concur v? w?)
    (each : ∀ v w, v? = some v → w? = some w → v.Same w → R v w) : Option.Rel R v? w? := by
  cases agree with
  | none => exact .none
  | some same => exact .some (each _ _ rfl rfl same)

theorem Concur.symm {v? w? : Option Value} (agree : Concur v? w?)
    (each : ∀ v w, v? = some v → w? = some w → v.Same w → w.Same v) : Concur w? v? := by
  cases agree with
  | none => exact .none
  | some same => exact .some (each _ _ rfl rfl same)

theorem Concur.trans {u? v? w? : Option Value} (first : Concur u? v?) (second : Concur v? w?)
    (each : ∀ u v w, u? = some u → v? = some v → w? = some w → u.Same v → v.Same w → u.Same w) :
    Concur u? w? := by
  cases first with
  | none =>
    cases second
    exact .none
  | some same =>
    cases second with
    | some same' => exact .some (each _ _ _ rfl rfl rfl same same')

theorem sameItems_iff : sameItems vs ws = true ↔ ∀ i : Nat, Concur vs[i]? ws[i]? := by
  rw [← forall₂_iff_getElem?]
  induction vs generalizing ws with
  | nil => cases ws <;> simp [sameItems]
  | cons v vs ih => cases ws <;> simp [sameItems, ih]

theorem sameMembers_iff : sameMembers es fs = true ↔
    ∀ e ∈ es, ∃ w, Entries.get? e.1 fs = some w ∧ w.Same e.2 := by
  induction es with
  | nil => simp
  | cons e es ih => simp [sameMembers_cons, ih, Option.any_eq_true]

theorem same_list_iff : (list vs).Same (list ws) ↔ ∀ i : Nat, Concur vs[i]? ws[i]? := by
  simp only [Same, same, sameItems_iff]

theorem same_record_iff {type type' : String} : (record type vs).Same (record type' ws) ↔
    type = type' ∧ ∀ i : Nat, Concur vs[i]? ws[i]? := by
  simp only [Same, same, Bool.and_eq_true, decide_eq_true_eq, sameItems_iff]

/-- Sets are gone through from the one side, and values compared from the other. -/
theorem same_set_iff_back (distinct : es.Distinct) (distinct' : fs.Distinct) :
    (set es).Same (set fs) ↔ ∀ k, Concur (fs.get? k) (es.get? k) := by
  simp only [Same, same, Bool.and_eq_true, decide_eq_true_eq, sameMembers_iff]
  constructor
  · rintro ⟨long, covered⟩ k
    cases held : es.get? k with
    | some v =>
      obtain ⟨w, held', same⟩ := covered (k, v) (distinct.mem_iff.mpr held)
      rw [held']
      exact .some same
    | none =>
      -- Only one side is looked through; that the other has no more members settles its keys.
      have within (k : Key) (mem : k ∈ es.keys) : k ∈ fs.keys := by
        obtain ⟨e, there, rfl⟩ := List.mem_map.mp mem
        obtain ⟨w, held', -⟩ := covered e there
        exact Entries.mem_keys_of_get? held'
      have absent : k ∉ fs.keys := fun mem => by
        have present := distinct.mem_keys_of_covered long within mem
        simp [Entries.mem_keys_iff, Entries.contains, held] at present
      rw [Entries.get?_eq_none absent]
      exact .none
  · intro agree
    obtain ⟨gs, perm, along⟩ := Entries.exists_perm_along distinct' distinct agree
    refine ⟨(along.length_eq.trans perm.length_eq).symm, fun e mem => ?_⟩
    have here := agree e.1
    rw [distinct.mem_iff.mp mem] at here
    cases held : fs.get? e.1 with
    | none => simp [held] at here
    | some w => exact ⟨w, rfl, by simpa [held] using here⟩

/-- A value without what stands inside it. -/
def shell : Value → Value
  | list _ => list []
  | set _ => set []
  | record type _ => record type []
  | v => v

theorem shell_eq_of_same : v.Same w → v.shell = w.shell := by
  unfold Same
  fun_cases Value.same v w <;> simp +contextual [shell]

theorem type?_shell (v : Value) : v.shell.type? = v.type? := by
  cases v <;> rfl

theorem type?_eq_of_same (same : v.Same w) : v.type? = w.type? := by
  rw [← type?_shell v, shell_eq_of_same same, type?_shell]

theorem shell_of_isFlat (flat : v.isFlat = true) : v.shell = v := by
  cases v <;> first | rfl | cases flat

theorem eq_of_shell_eq (flat : v.isFlat = true) (make : v.shell = w.shell) : v = w := by
  rw [shell_of_isFlat flat] at make
  subst make
  cases w <;> first | rfl | cases flat

inductive OneMake : Value → Value → Prop
  | flat {v : Value} (flat : v.isFlat = true) : OneMake v v
  | list (vs ws : List Value) : OneMake (list vs) (list ws)
  | set (es fs : Members) : OneMake (set es) (set fs)
  | record (type : String) (vs ws : List Value) : OneMake (record type vs) (record type ws)

theorem oneMake_of_shell_eq (make : v.shell = w.shell) : OneMake v w := by
  cases v with
  | list vs =>
    cases w with
    | list ws => exact .list vs ws
    | _ => simp [shell] at make
  | set es =>
    cases w with
    | set fs => exact .set es fs
    | _ => simp [shell] at make
  | record type vs =>
    cases w with
    | record type' ws =>
      obtain rfl : type = type' := by simpa [shell] using make
      exact .record type vs ws
    | _ => simp [shell] at make
  | _ =>
    obtain rfl := eq_of_shell_eq rfl make
    exact .flat rfl

theorem same_flat_iff (flat : v.isFlat = true) : v.Same w ↔ v = w := by
  refine ⟨fun same => eq_of_shell_eq flat (shell_eq_of_same same), ?_⟩
  rintro rfl
  cases v <;> simp_all [Same, same, isFlat]

/-- What stands at a place inside a value: an item or a field by its number, a member by its key. -/
def at? : Value → Nat ⊕ Key → Option Value
  | list vs | record _ vs => Sum.elim (fun i => vs[i]?) fun _ => none
  | set es => Sum.elim (fun _ => none) fun k => Entries.get? k es
  | _ => fun _ => none

theorem mem_contents_of_at? {p : Nat ⊕ Key} (there : v.at? p = some w) : w ∈ v.contents := by
  cases v <;> cases p <;> simp only [at?, Sum.elim_inl, Sum.elim_inr, reduceCtorEq] at there
  · exact List.mem_of_getElem? there
  · exact List.mem_map.mpr ⟨_, Entries.mem_of_get? there, rfl⟩
  · exact List.mem_of_getElem? there

theorem WellKeyed.at? (keyed : v.WellKeyed) {p : Nat ⊕ Key} (there : v.at? p = some w) :
    w.WellKeyed :=
  (wellKeyed_iff.mp keyed).2 w (mem_contents_of_at? there)

theorem Concur.self {v? : Option Value} (keyed : ∀ v, v? = some v → v.WellKeyed) :
    Concur v? v? := by
  cases v? with
  | none => exact .none
  | some v => exact .some (same_self v (keyed v rfl))

theorem contents_induction {P : Value → Prop} (step : ∀ v, (∀ w ∈ v.contents, P w) → P v)
    (v : Value) : P v := by
  induction v using Value.induction with
  | flat v flat => exact step v (by simp [contents_of_isFlat flat])
  | list items ih => exact step _ ih
  | set members ih =>
    refine step _ fun w mem => ?_
    obtain ⟨e, there, rfl⟩ := List.mem_map.mp mem
    exact ih e there
  | record type fields ih => exact step _ ih

theorem same_comm (keyed : v.WellKeyed) (keyed' : w.WellKeyed) : v.Same w ↔ w.Same v := by
  induction v using contents_induction generalizing w with
  | step v ih =>
    by_cases make : v.shell = w.shell
    case neg =>
      exact iff_of_false (mt shell_eq_of_same make)
        (mt (fun same => (shell_eq_of_same same).symm) make)
    have turns (p : Nat ⊕ Key) : Concur (v.at? p) (w.at? p) ↔ Concur (w.at? p) (v.at? p) := by
      have inside {v' w' : Value} (there : v.at? p = some v') (there' : w.at? p = some w') :
          v'.Same w' ↔ w'.Same v' :=
        ih v' (mem_contents_of_at? there) (keyed.at? there) (keyed'.at? there')
      exact ⟨fun agree => agree.symm fun _ _ there there' => (inside there there').mp,
        fun agree => agree.symm fun _ _ there' there => (inside there there').mpr⟩
    cases oneMake_of_shell_eq make with
    | flat => rfl
    | list vs ws =>
      rw [same_list_iff, same_list_iff]
      exact forall_congr' fun i => turns (.inl i)
    | set es fs =>
      obtain ⟨distinct, -⟩ := wellKeyed_iff.mp keyed
      obtain ⟨distinct', -⟩ := wellKeyed_iff.mp keyed'
      rw [same_set_iff_back distinct distinct', same_set_iff_back distinct' distinct]
      exact forall_congr' fun k => (turns (.inr k)).symm
    | record type vs ws =>
      rw [same_record_iff, same_record_iff]
      exact and_congr_right fun _ => forall_congr' fun i => turns (.inl i)

theorem Same.symm (keyed : v.WellKeyed) (keyed' : w.WellKeyed) (same : v.Same w) : w.Same v :=
  (same_comm keyed keyed').mp same

theorem same_set_iff (keyed : (set es).WellKeyed) (keyed' : (set fs).WellKeyed) :
    (set es).Same (set fs) ↔ ∀ k, Concur (es.get? k) (fs.get? k) := by
  rw [same_comm keyed keyed']
  exact same_set_iff_back (wellKeyed_iff.mp keyed').1 (wellKeyed_iff.mp keyed).1

/-- Values say the same if they are of one make and agree at every place inside. -/
theorem same_iff (keyed : v.WellKeyed) (keyed' : w.WellKeyed) :
    v.Same w ↔ v.shell = w.shell ∧ ∀ p, Concur (v.at? p) (w.at? p) := by
  by_cases make : v.shell = w.shell
  · cases oneMake_of_shell_eq make with
    | flat => exact iff_of_true (same_self v keyed) ⟨rfl, fun _ => .self fun _ => keyed.at?⟩
    | list vs ws => simp [same_list_iff, shell, at?, Sum.forall]
    | set es fs => simp [same_set_iff keyed keyed', shell, at?, Sum.forall]
    | record type vs ws => simp [same_record_iff, shell, at?, Sum.forall]
  · exact iff_of_false (mt shell_eq_of_same make) (mt And.left make)

theorem Same.trans (keyed : u.WellKeyed) (keyed' : v.WellKeyed) (keyed'' : w.WellKeyed)
    (first : u.Same v) (second : v.Same w) : u.Same w := by
  induction u using contents_induction generalizing v w with
  | step u ih =>
    obtain ⟨make, agree⟩ := (same_iff keyed keyed').mp first
    obtain ⟨make', agree'⟩ := (same_iff keyed' keyed'').mp second
    refine (same_iff keyed keyed'').mpr ⟨make.trans make', fun p => ?_⟩
    refine (agree p).trans (agree' p) fun u v w there there' there'' => ?_
    exact ih u (mem_contents_of_at? there) (keyed.at? there) (keyed'.at? there')
      (keyed''.at? there'')

theorem Concur.put (agree : ∀ k, Concur (es.get? k) (fs.get? k)) (same : v.Same w) (k k' : Key) :
    Concur ((es.put k v).get? k') ((fs.put k w).get? k') := by
  by_cases here : k' = k
  · subst here
    simpa using same
  · rw [Entries.get?_put_ne here, Entries.get?_put_ne here]
    exact agree k'

end Value

end SharedObjects
