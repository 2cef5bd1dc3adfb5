import SharedObjects.Proofs.SharedObject.Operations
/-!
The life of a shared object through whatever it is asked. Its stage moves one step forward or stays,
its identifier is given once, when it goes live, and its fields hold what they held unless something
that can write to them was done: direct writes before it goes live, events while it is live, and at
any time the reading of field values from an input, for which the stage does not matter.
-/
set_option autoImplicit false

namespace SharedObjects

namespace Watched

open SharedObject (Alters)

def next (w : Watched) (op : ObjectOperation) : Watched := ((perform op).outcome w).2

def run (ops : List ObjectOperation) (w : Watched) : Watched := ops.foldl next w

theorem run_append (early later : List ObjectOperation) (w : Watched) :
    run (early ++ later) w = run later (run early w) := List.foldl_append

theorem next_cases (w : Watched) (op : ObjectOperation) :
    (∃ fault, perform op w = .error fault w ∧ w.next op = w) ∨
    Alters w.object op (w.next op).object := by
  rcases perform_cases op w with ⟨fault, refused⟩ | ⟨after, done, alters⟩
  · exact .inl ⟨fault, refused, by rw [next, Attempt.outcome_error refused]⟩
  · exact .inr (by rwa [next, Attempt.outcome_ok done])

end Watched

def ObjectOperation.stageAfter (s : Stage) : ObjectOperation → Stage
  | goLive _ => if s = .unregistered then .live else s
  | beginUnregister => if s = .live then .unregistering else s
  | markRemoved => if s = .unregistering then .removed else s
  | _ => s

/-- The identifier an operation leaves an object with: the one it went live under, if it did. -/
def ObjectOperation.idAfter (o : SharedObject) : ObjectOperation → ObjectId
  | goLive id => if o.stage = .unregistered then id else o.id
  | _ => o.id

theorem ObjectOperation.stageAfter_cases (op : ObjectOperation) (s : Stage) :
    op.stageAfter s = s ∨ s.canBecome (op.stageAfter s) = true := by
  cases op <;> cases s <;> simp [stageAfter, Stage.canBecome]

theorem Watched.stays_of_error {w : Watched} {op : ObjectOperation} {fault : Fault}
    (refused : perform op w = .error fault w) :
    op.stageAfter w.object.stage = w.object.stage ∧ op.idAfter w.object = w.object.id := by
  have not_done {f : SharedObject → Except Fault SharedObject} {o : SharedObject}
      (done : f w.object = .ok o) (refused : change f w = .error fault w) : False := by
    rw [change_ok done] at refused
    cases refused
  cases op with
  | goLive id =>
    have other : w.object.stage ≠ .unregistered := fun stage =>
      not_done (f := fun o => o.goLive id) (if_pos stage) refused
    simp [ObjectOperation.stageAfter, ObjectOperation.idAfter, other]
  | beginUnregister =>
    have other : w.object.stage ≠ .live := fun stage =>
      not_done (f := SharedObject.beginUnregister) (if_pos (by rw [stage]; rfl)) refused
    simp [ObjectOperation.stageAfter, ObjectOperation.idAfter, other]
  | markRemoved =>
    have other : w.object.stage ≠ .unregistering := fun stage =>
      not_done (f := SharedObject.markRemoved) (if_pos (by rw [stage]; rfl)) refused
    simp [ObjectOperation.stageAfter, ObjectOperation.idAfter, other]
  | _ => exact ⟨rfl, rfl⟩

namespace SharedObject

variable {o after last : SharedObject} {op : ObjectOperation}

/-- What writes to the fields of an object: direct writes before it goes live, events it takes while
it is live, and the reading of field values at any time. -/
inductive Writes (o : SharedObject) : ObjectOperation → SharedObject → Prop
  | directly {op : ObjectOperation} {index : UInt16} {v : Value} :
    (op = .set index v ∨ ∃ name, op = .setNamed name v) → o.stage = .unregistered →
    Writes o op (o.put index v)
  | event {e : Event} {after : SharedObject} : o.stage = .live → o.apply e = .ok after →
    Writes o (.apply e) after
  | read {c : Catalog} {input rest : Input} {values : List Value} :
    Read.fields c o.type input = .ok values rest →
    Writes o (.readFields c input) { o with values := values }

theorem Alters.stage (alters : o.Alters op after) : after.stage = op.stageAfter o.stage := by
  cases alters with
  | live stage | leaving stage | left stage => simp [ObjectOperation.stageAfter, stage]
  | applied applied => exact stage_of_apply applied
  | _ => rfl

theorem Alters.id (alters : o.Alters op after) : after.id = op.idAfter o := by
  cases alters with
  | live stage => simp [ObjectOperation.idAfter, stage]
  | applied applied =>
    rw [apply_eq applied]
    rfl
  | _ => rfl

theorem Alters.type (alters : o.Alters op after) : after.type = o.type := by
  cases alters with
  | applied applied => exact type_of_apply applied
  | _ => rfl

theorem Alters.values (alters : o.Alters op after) :
    after.values = o.values ∨ o.Writes op after := by
  cases alters with
  | set writable => exact .inr (.directly (.inl rfl) writable.unregistered)
  | setNamed writable => exact .inr (.directly (.inr ⟨_, rfl⟩) writable.unregistered)
  | read read => exact .inr (.read read)
  | applied applied => exact .inr (.event (apply_ok applied).1 applied)
  | _ => exact .inl rfl

/-- What an operation does to an object: it stays in its stage or goes on to the next one as asked,
has a new identifier if it goes live, and holds what it held unless that was written to. -/
structure Disciplined (o : SharedObject) (op : ObjectOperation) (after : SharedObject) : Prop where
  stage : after.stage = op.stageAfter o.stage
  forward : after.stage = o.stage ∨ o.stage.canBecome after.stage = true
  id : after.id = op.idAfter o
  type : after.type = o.type
  values : after.values = o.values ∨ o.Writes op after

/-- What can have become of an object by any number of operations: its stage has moved forward, and
the identifier it went live under is still its own. -/
structure Aged (o last : SharedObject) : Prop where
  forward : o.stage.code ≤ last.stage.code
  named : o.stage ≠ .unregistered → last.stage ≠ .unregistered ∧ last.id = o.id
  type : last.type = o.type

theorem Aged.refl (o : SharedObject) : o.Aged o :=
  ⟨UInt8.le_refl _, fun registered => ⟨registered, rfl⟩, rfl⟩

theorem Aged.trans (first : o.Aged after) (rest : after.Aged last) : o.Aged last where
  forward := UInt8.le_trans first.forward rest.forward
  named := fun registered =>
    have ⟨left, same⟩ := first.named registered
    have ⟨still, again⟩ := rest.named left
    ⟨still, again.trans same⟩
  type := rest.type.trans first.type

theorem Disciplined.aged (disciplined : o.Disciplined op after) : o.Aged after where
  forward := by
    rcases disciplined.forward with same | moved
    · rw [same]
      exact UInt8.le_refl _
    · have step := (Stage.canBecome_iff _ _).mp moved
      exact UInt8.le_iff_toNat_le.mpr (by omega)
  named := by
    intro registered
    refine ⟨?_, ?_⟩
    · rcases disciplined.forward with same | moved
      · rwa [same]
      · intro back
        have step := (Stage.canBecome_iff _ _).mp moved
        simp [back, Stage.code] at step
    · rw [disciplined.id]
      cases op <;> simp [ObjectOperation.idAfter, registered]
  type := disciplined.type

end SharedObject

namespace Watched

open SharedObject (Disciplined Aged)

theorem next_disciplined (w : Watched) (op : ObjectOperation) :
    w.object.Disciplined op (w.next op).object := by
  have forward := op.stageAfter_cases w.object.stage
  rcases next_cases w op with ⟨fault, refused, same⟩ | alters
  · obtain ⟨stage, id⟩ := stays_of_error refused
    rw [same]
    exact ⟨stage.symm, .inl rfl, id.symm, rfl, .inl rfl⟩
  · exact ⟨alters.stage, alters.stage ▸ forward, alters.id, alters.type, alters.values⟩

theorem run_aged (ops : List ObjectOperation) (w : Watched) : w.object.Aged (run ops w).object := by
  induction ops generalizing w with
  | nil => exact .refl w.object
  | cons op rest ih => exact (next_disciplined w op).aged.trans (ih (w.next op))

/-- Whatever an object is asked, at every point of its life: it stays in its stage or goes on to the
next one; its identifier is given to it when it goes live and is its own from then on; and what its
fields hold is changed by direct writes before it goes live, by events it takes while it is live,
and by field values read from an input, and by nothing else. -/
theorem write_discipline (w : Watched) (done : List ObjectOperation) (op : ObjectOperation)
    (later : List ObjectOperation) :
    run (done ++ op :: later) w = run later ((run done w).next op) ∧
    (run done w).object.Disciplined op ((run done w).next op).object ∧
    ((run done w).next op).object.Aged (run (done ++ op :: later) w).object := by
  have split : run (done ++ op :: later) w = run later ((run done w).next op) :=
    run_append done (op :: later) w
  refine ⟨split, next_disciplined _ op, ?_⟩
  rw [split]
  exact run_aged later _

end Watched

def counterType : ResolvedType := ⟨"Counter", .distributed, [rootName], [⟨"count", .int⟩]⟩

def readSeven : ObjectOperation := .readFields .initial ⟨[0, 0, 0, 7], 0, ∅⟩

/-- A counter has gone live and refuses direct writes, and yet its number is overwritten by one that
is read, without an event and without anyone being told. -/
theorem Watched.reading_overwrites_live : ∃ counter, SharedObject.ofType counterType = .ok counter ∧
    let w := run [.listen "first", .goLive ⟨5⟩] ⟨counter, []⟩
    w.object.stage = .live ∧
    perform (.set 0 (.int 7)) w = .error (.directWrite ⟨5⟩) w ∧
    readSeven.Proper ∧ (∀ e, readSeven ≠ .apply e) ∧
    w.object.values = [.int 0] ∧
    (w.next readSeven).object = { w.object with values := [.int 7] } ∧
    (w.next readSeven).heard = [] := by
  have proper : readSeven.Proper := ⟨.initial, rfl, ∅, named_empty _ _⟩
  exact ⟨_, rfl, rfl, rfl, proper, nofun, rfl, rfl, rfl⟩

end SharedObjects
