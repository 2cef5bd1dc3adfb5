import SharedObjects.Proofs.Value.Places
set_option autoImplicit false

namespace SharedObjects.Value

variable {v w : Value} {before behind : List Value}

/-- One value is made of another by moving members of sets about, at any depth and any number of
times. -/
inductive Reorders : Value → Value → Prop
  | refl (v : Value) : Reorders v v
  | trans {u v w : Value} : Reorders u v → Reorders v w → Reorders u w
  | moved {members moved : Members} : members.Perm moved → Reorders (.set members) (.set moved)
  | item {v w : Value} (before behind : List Value) : Reorders v w →
    Reorders (.list (before ++ v :: behind)) (.list (before ++ w :: behind))
  | member {v w : Value} (before behind : Members) (k : Key) : Reorders v w →
    Reorders (.set (before ++ (k, v) :: behind)) (.set (before ++ (k, w) :: behind))
  | field {v w : Value} (type : String) (before behind : List Value) : Reorders v w →
    Reorders (.record type (before ++ v :: behind)) (.record type (before ++ w :: behind))

theorem Reorders.along {α : Type} {R : α → α → Prop} {f : List α → Value}
    (step : ∀ before a b behind, R a b →
      Reorders (f (before ++ a :: behind)) (f (before ++ b :: behind)))
    {as bs : List α} (along : List.Forall₂ R as bs) (before : List α) :
    Reorders (f (before ++ as)) (f (before ++ bs)) := by
  induction along generalizing before with
  | nil => exact .refl _
  | @cons a b as bs first rest ih =>
    have later := ih (before ++ [b])
    rw [List.append_assoc, List.append_assoc] at later
    exact (step before a b as first).trans later

theorem Same.reorders (keyed : v.WellKeyed) (keyed' : w.WellKeyed) (same : v.Same w) :
    Reorders v w := by
  induction v using contents_induction generalizing w with
  | step v ih =>
    obtain ⟨make, agree⟩ := (same_iff keyed keyed').mp same
    have inside (p : Nat ⊕ Key) : Option.Rel Reorders (v.at? p) (w.at? p) := by
      refine (agree p).imp fun v w there there' => ?_
      exact ih v (mem_contents_of_at? there) (keyed.at? there) (keyed'.at? there')
    cases oneMake_of_shell_eq make with
    | flat => exact .refl _
    | list vs ws =>
      have along : List.Forall₂ Reorders vs ws :=
        forall₂_iff_getElem?.mpr fun i => inside (.inl i)
      exact Reorders.along (f := .list) (fun before _ _ behind => .item before behind) along []
    | set es fs =>
      obtain ⟨gs, perm, along⟩ := Entries.exists_perm_along (wellKeyed_iff.mp keyed).1
        (wellKeyed_iff.mp keyed').1 fun k => inside (.inr k)
      refine .trans (Reorders.along (f := .set) ?_ along []) (.moved perm)
      rintro before ⟨k, v⟩ ⟨_, w⟩ behind ⟨rfl, reorders⟩
      exact .member before behind k reorders
    | record type vs ws =>
      have along : List.Forall₂ Reorders vs ws :=
        forall₂_iff_getElem?.mpr fun i => inside (.inl i)
      exact Reorders.along (f := .record type)
        (fun before _ _ behind => .field type before behind) along []

theorem agree_replaced (inside : ∀ u ∈ before ++ v :: behind, u.WellKeyed) (keyed : w.WellKeyed)
    (same : v.Same w) : (∀ u ∈ before ++ w :: behind, u.WellKeyed) ∧
      ∀ i : Nat, Concur (before ++ v :: behind)[i]? (before ++ w :: behind)[i]? := by
  simp only [List.forall_mem_append, List.forall_mem_cons] at inside ⊢
  obtain ⟨first, -, last⟩ := inside
  refine ⟨⟨first, keyed, last⟩, forall₂_iff_getElem?.mp ?_⟩
  have still {vs : List Value} (keyed : ∀ u ∈ vs, u.WellKeyed) : List.Forall₂ Same vs vs :=
    List.forall₂_same.mpr fun u mem => same_self u (keyed u mem)
  exact List.rel_append (still first) (.cons same (still last))

theorem Reorders.same (reorders : Reorders v w) (keyed : v.WellKeyed) :
    w.WellKeyed ∧ v.Same w := by
  induction reorders with
  | refl v => exact ⟨keyed, same_self v keyed⟩
  | trans _ _ ih ih' =>
    obtain ⟨keyed', first⟩ := ih keyed
    obtain ⟨keyed'', second⟩ := ih' keyed'
    exact ⟨keyed'', first.trans keyed keyed' keyed'' second⟩
  | @moved members moved perm =>
    obtain ⟨distinct, inside⟩ := wellKeyed_iff.mp keyed
    have distinct' : Entries.Distinct moved := (perm.map Prod.fst).nodup_iff.mp distinct
    have keyed' : (set moved).WellKeyed := wellKeyed_iff.mpr ⟨distinct', fun u mem =>
      inside u ((perm.map Prod.snd).mem_iff.mpr mem)⟩
    refine ⟨keyed', (same_set_iff keyed keyed').mpr fun k => ?_⟩
    rw [← distinct.get?_eq_of_perm perm k]
    exact .self fun u held => keyed.at? (p := .inr k) held
  | item before behind _ ih =>
    obtain ⟨-, inside⟩ := wellKeyed_iff.mp keyed
    obtain ⟨keyed', same⟩ := ih (inside _ (by simp [contents]))
    obtain ⟨inside', agree⟩ := agree_replaced inside keyed' same
    exact ⟨wellKeyed_iff.mpr ⟨trivial, inside'⟩, same_list_iff.mpr agree⟩
  | @member v w before behind k _ ih =>
    obtain ⟨distinct, inside⟩ := wellKeyed_iff.mp keyed
    obtain ⟨keyed', same⟩ := ih (inside _ (by simp [contents]))
    have distinct' : Entries.Distinct (before ++ (k, w) :: behind) := by
      simpa [KeysDistinct, Entries.Distinct, Entries.keys] using distinct
    have held : Entries.get? k (before ++ (k, v) :: behind) = some v :=
      Entries.Distinct.mem_iff distinct |>.mp (by simp)
    have keyed' : (set (before ++ (k, w) :: behind)).WellKeyed := by
      refine wellKeyed_iff.mpr ⟨distinct', ?_⟩
      simp only [contents, List.map_append, List.map_cons] at inside ⊢
      exact (agree_replaced inside keyed' same).1
    refine ⟨keyed', (same_set_iff keyed keyed').mpr ?_⟩
    have agree := Concur.put (fun k' => .self fun u held => keyed.at? (p := .inr k') held) same k
    obtain ⟨elsewhere, -⟩ := Entries.Distinct.elsewhere distinct
    rwa [Entries.put_of_get? held, Entries.put_split elsewhere] at agree
  | field type before behind _ ih =>
    obtain ⟨-, inside⟩ := wellKeyed_iff.mp keyed
    obtain ⟨keyed', same⟩ := ih (inside _ (by simp [contents]))
    obtain ⟨inside', agree⟩ := agree_replaced inside keyed' same
    exact ⟨wellKeyed_iff.mpr ⟨trivial, inside'⟩, same_record_iff.mpr ⟨rfl, agree⟩⟩

theorem same_iff_reorders (keyed : v.WellKeyed) (keyed' : w.WellKeyed) :
    v.Same w ↔ Reorders v w :=
  ⟨Same.reorders keyed keyed', fun reorders => (reorders.same keyed).2⟩

theorem same_set_iff_keys {es fs : Members} (distinct : es.Distinct) (distinct' : fs.Distinct) :
    (set es).Same (set fs) ↔ (∀ k, k ∈ es.keys ↔ k ∈ fs.keys) ∧
      ∀ k v w, es.get? k = some v → fs.get? k = some w → w.Same v := by
  rw [same_set_iff_back distinct distinct', ← forall_and]
  refine forall_congr' fun k => ?_
  simp only [Entries.mem_keys_iff, Entries.contains]
  cases es.get? k <;> cases fs.get? k <;> simp

/-- Saying the same is an equivalence of values, none of whose sets holds a key twice. Two sets say
the same if they have the same keys and under each of them values that do, in whatever order; and
so altogether two values do exactly if they differ by the order of set members, at any depth. Lists
and records are compared place by place, numbers by their bits and all else that holds no values as
it is; and values of different kinds never say the same. -/
theorem same_up_to_order :
    Equivalence (fun v w : {v : Value // v.WellKeyed} => v.1.same w.1 = true) ∧
    (∀ es fs : Members, es.Distinct → fs.Distinct →
      ((set es).same (set fs) = true ↔ (∀ k, k ∈ es.keys ↔ k ∈ fs.keys) ∧
        ∀ k v w, es.get? k = some v → fs.get? k = some w → w.same v = true)) ∧
    (∀ v w : Value, v.WellKeyed → w.WellKeyed → (v.same w = true ↔ Reorders v w)) ∧
    (∀ vs ws, (list vs).same (list ws) = true ↔
      List.Forall₂ (fun v w => v.same w = true) vs ws) ∧
    (∀ type type' vs ws, (record type vs).same (record type' ws) = true ↔
      type = type' ∧ List.Forall₂ (fun v w => v.same w = true) vs ws) ∧
    (∀ bits bits', (float bits).same (float bits') = true ↔ bits = bits') ∧
    (∀ bits bits', (double bits).same (double bits') = true ↔ bits = bits') ∧
    (∀ v w : Value, v.isFlat = true → (v.same w = true ↔ v = w)) ∧
    ∀ v w : Value, v.type? ≠ w.type? → v.same w = false := by
  refine ⟨⟨fun v => same_self v.1 v.2, fun {v w} => Same.symm v.2 w.2,
    fun {u v w} => Same.trans u.2 v.2 w.2⟩,
    fun es fs => same_set_iff_keys, fun v w => same_iff_reorders, fun vs ws => ?_,
    fun type type' vs ws => ?_, fun bits bits' => ?_, fun bits bits' => ?_,
    fun v w flat => same_flat_iff flat, fun v w other => ?_⟩
  · exact same_list_iff.trans forall₂_iff_getElem?.symm
  · exact same_record_iff.trans (and_congr_right fun _ => forall₂_iff_getElem?.symm)
  · simp [same]
  · simp [same]
  · exact Bool.eq_false_iff.mpr fun same => other (type?_eq_of_same same)

theorem same_up_to_order_nested :
    let inner : Members := [(.number 1, .float 0x7FC00000), (.text "a", .null)]
    let v : Value := .set [(.number 1, .list [.set inner]), (.number 2, .null)]
    let w : Value := .set [(.number 2, .null), (.number 1, .list [.set inner.reverse])]
    v.WellKeyed ∧ w.WellKeyed ∧ v.same w = true ∧ w.same v = true ∧ Reorders v w := by
  intro inner v w
  have keyed : v.WellKeyed := by decide
  have keyed' : w.WellKeyed := by decide
  have same : v.same w = true := by decide +kernel
  obtain ⟨equivalence, -, reordered, -⟩ := same_up_to_order
  have back : w.same v = true := equivalence.symm (x := ⟨v, keyed⟩) (y := ⟨w, keyed'⟩) same
  exact ⟨keyed, keyed', same, back, (reordered v w keyed keyed').mp same⟩

/-- A key that stands twice hides one that does not stand at all. -/
example :
    let twice : Value := .set [(.number 1, .null), (.number 1, .null)]
    let once : Value := .set [(.number 1, .null), (.number 2, .null)]
    twice.same once = true ∧ once.same twice = false := by decide +kernel

end SharedObjects.Value
