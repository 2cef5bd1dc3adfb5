import SharedObjects.Proofs.Catalog.Growth
set_option autoImplicit false

namespace SharedObjects.Catalog

variable {c c' after : Catalog} {s : Schema} {t : ResolvedType} {ss ss' : List Schema}

/-- The second catalog knows every type that the first knows, as it is known there. -/
def Extends (c c' : Catalog) : Prop := ∀ name t, c.get? name = some t → c'.get? name = some t

theorem Extends.refl (c : Catalog) : c.Extends c := fun _ _ known => known

theorem Extends.trans {c'' : Catalog} (first : c.Extends c') (second : c'.Extends c'') :
    c.Extends c'' := fun name t known => second name t (first name t known)

theorem Extends.get?_eq (extends_ : c.Extends c') (back : c'.Extends c) (name : String) :
    c.get? name = c'.get? name := by
  apply Option.ext
  exact fun t => ⟨extends_ name t, back name t⟩

theorem extends_register (registered : c.register s = .ok (after, t)) : c.Extends after :=
  fun _ _ => get?_register_of_some registered

def trying (c : Catalog) (s : Schema) : Catalog :=
  match c.register s with
  | .ok (after, _) => after
  | .error _ => c

def tryingAll (c : Catalog) (ss : List Schema) : Catalog := ss.foldl trying c

theorem extends_trying (c : Catalog) (s : Schema) : c.Extends (c.trying s) := by
  unfold trying
  split
  · exact extends_register ‹_›
  · exact .refl c

theorem extends_tryingAll (c : Catalog) (ss : List Schema) : c.Extends (c.tryingAll ss) := by
  induction ss generalizing c with
  | nil => exact .refl c
  | cons s ss ih => exact (extends_trying c s).trans (ih _)

theorem Extends.inherited (extends_ : c.Extends c') {above : List String × List Field}
    (inherits : c.inherited s = .ok above) : c'.inherited s = .ok above := by
  unfold Catalog.inherited at inherits ⊢
  split at inherits
  next parent _ =>
    split at inherits
    next => cases inherits
    next p known =>
      simp only [extends_ parent p known]
      exact inherits
  next => exact inherits

/-- The schema is registered, and stands for what it inherits here and its own fields. -/
def Holds (c : Catalog) (s : Schema) : Prop :=
  ∃ ancestors above, c.inherited s = .ok (ancestors, above) ∧
    c.get? s.name = some ⟨s.name, s.kind, ancestors, above ++ s.fields⟩

theorem Holds.mono (holds : c.Holds s) (extends_ : c.Extends c') : c'.Holds s := by
  obtain ⟨ancestors, above, inherits, known⟩ := holds
  exact ⟨ancestors, above, extends_.inherited inherits, extends_ _ _ known⟩

theorem holds_of_register (registered : c.register s = .ok (after, t)) : after.Holds s := by
  obtain ⟨ancestors, above, inherits, rfl⟩ := (resolves_of_register registered).shape
  refine ⟨ancestors, above, (extends_register registered).inherited inherits, ?_⟩
  rw [get?_register registered, if_pos rfl]

theorem registerAll_cons (registered : c.registerAll (s :: ss) = .ok after) :
    ∃ between t, c.register s = .ok (between, t) ∧ between.registerAll ss = .ok after := by
  unfold registerAll at registered ⊢
  rw [List.foldlM_cons] at registered
  cases first : c.register s with
  | error fault =>
    rw [first] at registered
    cases registered
  | ok done =>
    obtain ⟨between, t⟩ := done
    rw [first] at registered
    exact ⟨between, t, rfl, registered⟩

theorem holds_of_registerAll (registered : c.registerAll ss = .ok after) :
    c.Extends after ∧ ∀ s ∈ ss, after.Holds s := by
  induction ss generalizing c with
  | nil =>
    cases registered
    exact ⟨.refl _, by simp⟩
  | cons s ss ih =>
    obtain ⟨between, t, first, rest⟩ := registerAll_cons registered
    obtain ⟨extends_, holds⟩ := ih rest
    exact ⟨(extends_register first).trans extends_,
      List.forall_mem_cons.mpr ⟨(holds_of_register first).mono extends_, holds⟩⟩

/-- A catalog that holds some schemas extends every catalog made from them, whatever the order. -/
theorem extends_of_holds (start : c.Extends c') (registered : c.registerAll ss = .ok after)
    (holds : ∀ s ∈ ss, c'.Holds s) : after.Extends c' := by
  induction ss generalizing c with
  | nil =>
    cases registered
    exact start
  | cons s ss ih =>
    obtain ⟨between, t, first, rest⟩ := registerAll_cons registered
    obtain ⟨here, others⟩ := List.forall_mem_cons.mp holds
    refine ih (fun name u known => ?_) rest others
    rw [get?_register first] at known
    split at known
    · rename_i same
      cases known
      obtain ⟨ancestors, above, inherits, rfl⟩ := (resolves_of_register first).shape
      obtain ⟨_, _, inherits', known'⟩ := here
      -- The parent was there before the schema, and so it is the same in both catalogs.
      rw [start.inherited inherits] at inherits'
      cases inherits'
      exact same ▸ known'
    · exact start name u known

theorem get?_eq_of_perm (same : ss.Perm ss') (one : initial.registerAll ss = .ok c)
    (other : initial.registerAll ss' = .ok c') (name : String) : c.get? name = c'.get? name := by
  obtain ⟨start, holds⟩ := holds_of_registerAll one
  obtain ⟨start', holds'⟩ := holds_of_registerAll other
  have forth : c.Extends c' := extends_of_holds start' one fun s mem => holds' s (same.subset mem)
  have back : c'.Extends c := extends_of_holds start other fun s mem =>
    holds s (same.symm.subset mem)
  exact forth.get?_eq back name

end SharedObjects.Catalog
