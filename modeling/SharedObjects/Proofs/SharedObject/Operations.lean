import SharedObjects.Proofs.SharedObject.Replicas
set_option autoImplicit false

namespace SharedObjects

/-- What a shared object can be asked. -/
inductive ObjectOperation
  | set (index : UInt16) (v : Value)
  | setNamed (name : String) (v : Value)
  | readFields (c : Catalog) (input : Input)
  | listen (listener : String)
  | clearListeners
  | goLive (id : ObjectId)
  | beginUnregister
  | markRemoved
  | apply (e : Event)
  | writeSnapshot (c : Catalog)

/-- Sets that are given have distinct keys, and an input comes from earlier readings: no container
is open, and the types behind its codes are catalogued. -/
def ObjectOperation.Proper : ObjectOperation → Prop
  | set _ v | setNamed _ v => v.WellKeyed
  | readFields c input => c.Reachable ∧ input.depth = 0 ∧ ∃ codes, Named c codes input.types
  | apply e => e.WellKeyed
  | _ => True

/-- An object, and what its listeners have been told. -/
structure Watched where
  object : SharedObject
  heard : List Notice

namespace Watched

open Attempt

def change (f : SharedObject → Except Fault SharedObject) : Attempt Watched Unit := do
  let o ← demand (f (← get).object)
  modify fun w => { w with object := o }

def apply (e : Event) : Attempt Watched Unit := do
  let o ← demand ((← get).object.apply e)
  modify fun w => ⟨o, w.heard ++ o.notices e⟩

def perform : ObjectOperation → Attempt Watched Unit
  | .set index v => change fun o => o.set index v
  | .setNamed name v => change fun o => o.setNamed name v
  | .readFields c input => change fun o => ((o.readFields c).outcome input).1
  | .listen listener => change fun o => .ok (o.listen listener)
  | .clearListeners => change fun o => .ok o.clearListeners
  | .goLive id => change fun o => o.goLive id
  | .beginUnregister => change SharedObject.beginUnregister
  | .markRemoved => change SharedObject.markRemoved
  | .apply e => apply e
  | .writeSnapshot c => change fun o => (o.snapshot c).map fun _ => o

variable {f : SharedObject → Except Fault SharedObject} {w after : Watched} {o : SharedObject}
  {e : Event} {fault : Fault}

theorem change_ok (made : f w.object = .ok o) : change f w = .ok () { w with object := o } := by
  rw [change, get_bind, bind_ok (demand_ok made w)]
  rfl

theorem change_error (refused : f w.object = .error fault) : change f w = .error fault w := by
  rw [change, get_bind, bind_error (demand_error refused w)]

theorem apply_ok (applied : w.object.apply e = .ok o) :
    apply e w = .ok () ⟨o, w.heard ++ o.notices e⟩ := by
  rw [apply, get_bind, bind_ok (demand_ok applied w)]
  rfl

theorem apply_error (refused : w.object.apply e = .error fault) : apply e w = .error fault w := by
  rw [apply, get_bind, bind_error (demand_error refused w)]

end Watched

namespace SharedObject

variable {o after : SharedObject} {op : ObjectOperation}

structure Writable (o : SharedObject) (index : UInt16) (v : Value) : Prop where
  unregistered : o.stage = .unregistered
  accepted : ∃ f, o.type.field? index = some f ∧ f.type.accepts v = true

/-- How an operation alters an object. -/
inductive Alters (o : SharedObject) : ObjectOperation → SharedObject → Prop
  | set {index : UInt16} {v : Value} : o.Writable index v →
    Alters o (.set index v) (o.put index v)
  | setNamed {name : String} {index : UInt16} {v : Value} : o.Writable index v →
    Alters o (.setNamed name v) (o.put index v)
  | read {c : Catalog} {input rest : Input} {values : List Value} :
    Read.fields c o.type input = .ok values rest →
    Alters o (.readFields c input) { o with values := values }
  | heard {listener : String} : Alters o (.listen listener) (o.listen listener)
  | unheard : Alters o .clearListeners o.clearListeners
  | live {id : ObjectId} : o.stage = .unregistered →
    Alters o (.goLive id) { o with id := id, stage := .live }
  | leaving : o.stage = .live → Alters o .beginUnregister { o with stage := .unregistering }
  | left : o.stage = .unregistering → Alters o .markRemoved { o with stage := .removed }
  | applied {e : Event} {after : SharedObject} : o.apply e = .ok after → Alters o (.apply e) after
  | written {c : Catalog} : Alters o (.writeSnapshot c) o

theorem slot_ok {index : UInt16} {declared : FieldType} {held : Value}
    (found : o.slot index = .ok (declared, held)) :
    ∃ f, o.type.field? index = some f ∧ f.type = declared ∧ o.get? index = some held := by
  unfold slot at found
  split at found
  · cases found
    exact ⟨_, ‹_›, rfl, ‹_›⟩
  · cases found

theorem writable_of_set {index : UInt16} {v : Value} (written : o.set index v = .ok after) :
    o.Writable index v := by
  unfold set at written
  split at written
  · cases written
  rename_i allowed
  have unregistered : o.stage = .unregistered := by simpa [Stage.allowsDirectWrites] using allowed
  split at written
  · cases written
  rename_i declared held found
  obtain ⟨f, there, rfl, -⟩ := slot_ok found
  split at written
  · exact ⟨unregistered, f, there, ‹_›⟩
  · cases written

theorem goLive_ok {id : ObjectId} (live : o.goLive id = .ok after) :
    o.stage = .unregistered ∧ after = { o with id := id, stage := .live } := by
  unfold goLive at live
  split at live
  · cases live
    exact ⟨‹_›, rfl⟩
  · cases live

theorem moveTo_ok {stage : Stage} (moved : o.moveTo stage = .ok after) :
    o.stage.canBecome stage = true ∧ after = { o with stage := stage } := by
  unfold moveTo at moved
  split at moved
  · cases moved
    exact ⟨‹_›, rfl⟩
  · cases moved

theorem readFields_ok {c : Catalog} {input : Input}
    (read : ((o.readFields c).outcome input).1 = .ok after) :
    ∃ values rest, Read.fields c o.type input = .ok values rest ∧
      after = { o with values := values } := by
  rw [readFields, Attempt.outcome_bind] at read
  cases fields : Read.fields c o.type input with
  | error fault rest =>
    rw [Attempt.outcome_error fields] at read
    cases read
  | ok values rest =>
    rw [Attempt.outcome_ok fields] at read
    cases read
    exact ⟨values, rest, rfl, rfl⟩

end SharedObject

namespace Watched

open SharedObject (Alters)

variable {w : Watched} {op : ObjectOperation}

theorem change_cases {f : SharedObject → Except Fault SharedObject}
    (alters : ∀ o, f w.object = .ok o → Alters w.object op o) :
    (∃ fault, change f w = .error fault w) ∨
    ∃ after, change f w = .ok () after ∧ Alters w.object op after.object := by
  cases made : f w.object with
  | error fault => exact .inl ⟨fault, change_error made⟩
  | ok o => exact .inr ⟨_, change_ok made, alters o made⟩

theorem perform_cases (op : ObjectOperation) (w : Watched) :
    (∃ fault, perform op w = .error fault w) ∨
    ∃ after, perform op w = .ok () after ∧ Alters w.object op after.object := by
  cases op with
  | set index v =>
    rw [perform]
    refine change_cases fun o written => ?_
    obtain rfl := SharedObject.put_of_set written
    exact .set (SharedObject.writable_of_set written)
  | setNamed name v =>
    rw [perform]
    refine change_cases fun o written => ?_
    unfold SharedObject.setNamed at written
    split at written
    · obtain rfl := SharedObject.put_of_set written
      exact .setNamed (SharedObject.writable_of_set written)
    · cases written
  | readFields c input =>
    rw [perform]
    refine change_cases fun o read => ?_
    obtain ⟨values, rest, fields, rfl⟩ := SharedObject.readFields_ok read
    exact .read fields
  | listen listener =>
    rw [perform]
    refine change_cases fun o same => ?_
    cases same
    exact .heard
  | clearListeners =>
    rw [perform]
    refine change_cases fun o same => ?_
    cases same
    exact .unheard
  | goLive id =>
    rw [perform]
    refine change_cases fun o live => ?_
    obtain ⟨unregistered, rfl⟩ := SharedObject.goLive_ok live
    exact .live unregistered
  | beginUnregister =>
    rw [perform]
    refine change_cases fun o moved => ?_
    obtain ⟨allowed, rfl⟩ := SharedObject.moveTo_ok moved
    exact .leaving (by cases stage : w.object.stage <;> simp_all [Stage.canBecome])
  | markRemoved =>
    rw [perform]
    refine change_cases fun o moved => ?_
    obtain ⟨allowed, rfl⟩ := SharedObject.moveTo_ok moved
    exact .left (by cases stage : w.object.stage <;> simp_all [Stage.canBecome])
  | apply e =>
    cases applied : w.object.apply e with
    | error fault => exact .inl ⟨fault, apply_error applied⟩
    | ok o => exact .inr ⟨_, apply_ok applied, .applied applied⟩
  | writeSnapshot c =>
    rw [perform]
    refine change_cases fun o written => ?_
    cases body : w.object.snapshot c <;> simp [body, Except.map] at written
    subst written
    exact .written

theorem alters_of_perform {after : Watched} (done : perform op w = .ok () after) :
    Alters w.object op after.object := by
  rcases perform_cases op w with ⟨fault, refused⟩ | ⟨next, step, alters⟩
  · rw [refused] at done
    cases done
  · rw [step] at done
    cases done
    exact alters

end Watched

namespace SharedObject

variable {o after : SharedObject} {op : ObjectOperation}

/-- An object as it can come to be: made of a type or from a snapshot, and asked for whatever one
likes since. -/
inductive Reachable : SharedObject → Prop
  | ofType {type : ResolvedType} {o : SharedObject} : SharedObject.ofType type = .ok o → Reachable o
  | ofSnapshot {c : Catalog} {id : ObjectId} {bytes : Octets} {o : SharedObject} :
    c.Reachable → SharedObject.ofSnapshot c id bytes = .ok o → Reachable o
  | perform {op : ObjectOperation} {w after : Watched} :
    Reachable w.object → op.Proper → Watched.perform op w = .ok () after → Reachable after.object

/-- There is one value for every field, which the field accepts, and every set is one. -/
structure Whole (o : SharedObject) : Prop where
  accepted : Value.Accepted o.values o.type.fields
  keyed : ∀ v ∈ o.values, v.WellKeyed

theorem Whole.put (whole : o.Whole) {index : UInt16} {v : Value} (writable : o.Writable index v)
    (keyed : v.WellKeyed) : (o.put index v).Whole := by
  obtain ⟨f, declared, fits⟩ := writable.accepted
  exact ⟨accepted_put whole.accepted declared fits, fun w mem =>
    (List.mem_or_eq_of_mem_set mem).elim (whole.keyed w) fun same => same ▸ keyed⟩

theorem Whole.alters (whole : o.Whole) (proper : op.Proper) (alters : o.Alters op after) :
    after.Whole := by
  cases alters with
  | set writable => exact whole.put writable proper
  | setNamed writable => exact whole.put writable proper
  | @read c input rest values read =>
    obtain ⟨reachable, top, codes, named⟩ := proper
    have shallow : input.depth ≤ maxNesting := by simp [top]
    obtain ⟨_, _, ⟨accepted, found⟩, -⟩ :=
      Takes.fields (Takes.value reachable shallow) o.type.fields input.rest input.types values rest
        named read
    exact ⟨accepted, fun v mem => (found.sound v mem).keyed⟩
  | heard | unheard | live | leaving | left | written => exact ⟨whole.accepted, whole.keyed⟩
  | applied applied =>
    exact ⟨accepted_of_apply applied whole.accepted, wellKeyed_of_apply applied whole.keyed proper⟩

theorem whole_ofType {type : ResolvedType} (made : ofType type = .ok o) : o.Whole := by
  unfold ofType at made
  split at made
  · cases made
    refine ⟨?_, fun v mem => ?_⟩
    · exact List.forall₂_map_left_iff.mpr
        (List.forall₂_same.mpr fun f _ => f.type.accepts_default)
    · obtain ⟨f, _, rfl⟩ := List.mem_map.mp mem
      exact f.type.wellKeyed_default
  · cases made

theorem Reachable.whole (reachable : o.Reachable) : o.Whole := by
  induction reachable with
  | ofType made => exact whole_ofType made
  | @ofSnapshot c id bytes o known read =>
    obtain ⟨_, _, ⟨catalogued, accepted⟩, -⟩ := (Takes.readSnapshot known id).whole read
    exact ⟨accepted, catalogued.keyed⟩
  | perform _ proper done ih => exact ih.alters proper (Watched.alters_of_perform done)

end SharedObject

end SharedObjects
