import Mathlib.Data.List.Forall2
import SharedObjects.Attempt
set_option autoImplicit false

namespace SharedObjects.Attempt

variable {σ α β : Type} {s s' : σ}

theorem bind_ok {first : Attempt σ α} {next : α → Attempt σ β} {a : α}
    (step : first s = .ok a s') : (first >>= next) s = next a s' := by
  simp only [Bind.bind, EStateM.bind, step]

theorem bind_error {first : Attempt σ α} {next : α → Attempt σ β} {fault : Fault}
    (step : first s = .error fault s') : (first >>= next) s = .error fault s' := by
  simp only [Bind.bind, EStateM.bind, step]

theorem of_bind_ok {first : Attempt σ α} {next : α → Attempt σ β} {b : β}
    (done : (first >>= next) s = .ok b s') :
    ∃ a between, first s = .ok a between ∧ next a between = .ok b s' := by
  cases step : first s with
  | error fault between =>
    rw [bind_error step] at done
    cases done
  | ok a between =>
    rw [bind_ok step] at done
    exact ⟨a, between, rfl, done⟩

@[simp] theorem get_run (s : σ) : (get : Attempt σ σ) s = .ok s s := rfl

@[simp] theorem modify_run (f : σ → σ) (s : σ) :
    (modify f : Attempt σ PUnit) s = .ok ⟨⟩ (f s) := rfl

@[simp] theorem modifyGet_run (f : σ → α × σ) (s : σ) :
    (modifyGet f : Attempt σ α) s = .ok (f s).1 (f s).2 := rfl

@[simp] theorem throw_run (fault : Fault) (s : σ) :
    (throw fault : Attempt σ α) s = .error fault s := rfl

theorem get_bind (next : σ → Attempt σ β) (s : σ) : (get >>= next) s = next s s := rfl

theorem demand_ok {result : Except Fault α} {a : α} (given : result = .ok a) (s : σ) :
    demand result s = .ok a s := by
  rw [given]
  rfl

theorem demand_error {result : Except Fault α} {fault : Fault} (failed : result = .error fault)
    (s : σ) : (demand result : Attempt σ α) s = .error fault s := by
  rw [failed]
  rfl

theorem outcome_ok {action : Attempt σ α} {a : α} (step : action s = .ok a s') :
    action.outcome s = (.ok a, s') := by simp [outcome, step]

theorem outcome_error {action : Attempt σ α} {fault : Fault} (step : action s = .error fault s') :
    action.outcome s = (.error fault, s') := by simp [outcome, step]

/-- Attempts one after the other, none of which stops those behind it: the result or fault of each,
and the state after all of them. -/
def inTurn {ι : Type} (perform : ι → Attempt σ α) : List ι → σ → List (Except Fault α) × σ
  | [], s => ([], s)
  | i :: rest, s =>
    let (result, after) := (perform i).outcome s
    let (results, last) := inTurn perform rest after
    (result :: results, last)

theorem inTurn_append {ι : Type} (perform : ι → Attempt σ α) (is more : List ι) (s : σ) :
    inTurn perform (is ++ more) s =
      ((inTurn perform is s).1 ++ (inTurn perform more (inTurn perform is s).2).1,
        (inTurn perform more (inTurn perform is s).2).2) := by
  induction is generalizing s with
  | nil => rfl
  | cons i is ih => simp only [List.cons_append, inTurn, ih]

theorem forM_of_inTurn {ι : Type} {perform : ι → Attempt σ PUnit} {is : List ι} {s : σ}
    (succeeded : ∀ result ∈ (inTurn perform is s).1, result = .ok ⟨⟩) :
    forM is perform s = .ok ⟨⟩ (inTurn perform is s).2 := by
  induction is generalizing s with
  | nil => rfl
  | cons i is ih =>
    cases step : perform i s with
    | error fault after =>
      simp [inTurn, outcome_error step] at succeeded
    | ok x after =>
      simp only [inTurn, outcome_ok step, List.forall_mem_cons] at succeeded ⊢
      rw [List.forM_cons, bind_ok step]
      exact ih succeeded.2

/-- Attempts that answer alike in related states, and leave them related, do so in turn. -/
theorem inTurn_related {τ ι κ : Type} {R : σ → τ → Prop} {I : ι → κ → Prop}
    {perform : ι → Attempt σ α} {perform' : κ → Attempt τ α}
    (step : ∀ i k s t, I i k → R s t →
      ((perform i).outcome s).1 = ((perform' k).outcome t).1 ∧
        R ((perform i).outcome s).2 ((perform' k).outcome t).2)
    {is : List ι} {ks : List κ} (tasks : List.Forall₂ I is ks) {s : σ} {t : τ} (start : R s t) :
    (inTurn perform is s).1 = (inTurn perform' ks t).1 ∧
      R (inTurn perform is s).2 (inTurn perform' ks t).2 := by
  induction tasks generalizing s t with
  | nil => exact ⟨rfl, start⟩
  | @cons i k is ks first _ ih =>
    obtain ⟨result, after⟩ := step i k s t first start
    obtain ⟨results, last⟩ := ih after
    simp only [inTurn]
    exact ⟨congrArg₂ List.cons result results, last⟩

def successes : List (Except Fault α) → List α := List.filterMap Except.toOption

/-- Where each result tells another state all that became of the one it came from, and faults leave
that one as it was, the results are all there is to tell. -/
theorem foldlM_successes {τ ι : Type} {P : α → Prop} {perform : ι → Attempt σ α}
    {take : τ → α → Except Fault τ} (f : σ → τ)
    (refused : ∀ i s fault s', perform i s = .error fault s' → s' = s)
    (told : ∀ i s a s', perform i s = .ok a s' → P a → take (f s) a = .ok (f s'))
    (is : List ι) (s : σ) (each : ∀ a ∈ successes (inTurn perform is s).1, P a) :
    (successes (inTurn perform is s).1).foldlM take (f s) = .ok (f (inTurn perform is s).2) := by
  induction is generalizing s with
  | nil => rfl
  | cons i rest ih =>
    cases step : perform i s with
    | error fault s' =>
      obtain rfl := refused i s fault s' step
      simp only [inTurn, outcome_error step, successes, List.filterMap_cons, Except.toOption]
        at each ⊢
      exact ih s' each
    | ok a s' =>
      simp only [inTurn, outcome_ok step, successes, List.filterMap_cons, Except.toOption,
        List.forall_mem_cons] at each ⊢
      rw [List.foldlM_cons, told i s a s' step each.1]
      exact ih s' each.2

end SharedObjects.Attempt

namespace SharedObjects

/-- Where a history is split at one of its steps, that step is the last one or stands before it. -/
theorem snoc_eq_split_iff {α : Type} {past before since : List α} {last t : α} :
    past ++ [last] = before ++ t :: since ↔ (since = [] ∧ before = past ∧ t = last) ∨
      ∃ rest, since = rest ++ [last] ∧ past = before ++ t :: rest := by
  constructor
  · intro split
    rcases since.eq_nil_or_concat with rfl | ⟨rest, final, rfl⟩
    · obtain ⟨rfl, single⟩ := List.append_inj' split rfl
      exact .inl ⟨rfl, rfl, (List.singleton_inj.mp single).symm⟩
    · rw [List.concat_eq_append, ← List.cons_append, ← List.append_assoc] at split
      obtain ⟨rfl, single⟩ := List.append_inj' split rfl
      exact .inr ⟨rest, by rw [List.concat_eq_append, single], rfl⟩
  · rintro (⟨rfl, rfl, rfl⟩ | ⟨rest, rfl, rfl⟩) <;> simp

end SharedObjects
