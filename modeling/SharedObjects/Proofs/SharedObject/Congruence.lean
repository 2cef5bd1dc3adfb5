import SharedObjects.Proofs.SharedObject.Applying
import SharedObjects.Proofs.Value.Places
/-!
Objects that hold the same, told the same. The order of set members, which sameness passes over,
decides neither whether an event is taken nor why it is refused, and what an event makes of fields
that say the same says the same. So two such objects answer every run of events alike, and hold the
same all along.
-/
set_option autoImplicit false

namespace SharedObjects

/-- Two results are one fault, or both there and related. -/
inductive Matches {α : Type} (R : α → α → Prop) : Except Fault α → Except Fault α → Prop
  | ok {a b : α} : R a b → Matches R (.ok a) (.ok b)
  | error (fault : Fault) : Matches R (.error fault) (.error fault)

theorem Matches.map {α β : Type} {R : α → α → Prop} {S : β → β → Prop} {f g : α → β}
    {r s : Except Fault α} (matched : Matches R r s) (each : ∀ a b, R a b → S (f a) (g b)) :
    Matches S (r.map f) (s.map g) := by
  cases matched with
  | ok related => exact .ok (each _ _ related)
  | error fault => exact .error fault

open Value (Same Concur)

namespace Members

variable {es fs : Members} {v w : Value} {k : Key}

structure Alike (es fs : Members) : Prop where
  left : (Value.set es).WellKeyed
  right : (Value.set fs).WellKeyed
  agree : ∀ k, Concur (es.get? k) (fs.get? k)

theorem Alike.mem_keys_iff (alike : Alike es fs) (k : Key) : k ∈ es.keys ↔ k ∈ fs.keys := by
  have here := alike.agree k
  simp only [Entries.mem_keys_iff, Entries.contains]
  cases here' : es.get? k <;> cases there : fs.get? k <;> simp_all

theorem Alike.agree_erase (alike : Alike es fs) (k k' : Key) :
    Concur ((es.erase k).get? k') ((fs.erase k).get? k') := by
  rw [Entries.get?_erase, Entries.get?_erase]
  split
  · exact .none
  · exact alike.agree k'

theorem Alike.agree_apply (alike : Alike es fs) {change change' : Change}
    (said : (Action.ofChange change).same (Action.ofChange change') = true) :
    Matches (fun es fs => ∀ k, Concur (es.get? k) (fs.get? k)) (Members.apply change es)
      (Members.apply change' fs) := by
  cases change with
  | added k v =>
    cases change' with
    | added k' w =>
      obtain ⟨rfl, same⟩ : k = k' ∧ v.Same w := by
        simpa [Action.ofChange, Action.same, BEq.beq] using said
      simp only [Members.apply, add_eq, ← alike.mem_keys_iff k]
      split
      · exact .error _
      · exact .ok (Concur.put alike.agree same k)
    | _ => simp [Action.ofChange, Action.same] at said
  | removed k =>
    cases change' with
    | removed k' =>
      obtain rfl : k = k' := by simpa [Action.ofChange, Action.same] using said
      simp only [Members.apply, remove_eq, ← alike.mem_keys_iff k]
      split
      · exact .ok (alike.agree_erase k)
      · exact .error _
    | _ => simp [Action.ofChange, Action.same] at said
  | updated k v =>
    cases change' with
    | updated k' w =>
      obtain ⟨rfl, same⟩ : k = k' ∧ v.Same w := by
        simpa [Action.ofChange, Action.same, BEq.beq] using said
      simp only [Members.apply, update_eq, ← alike.mem_keys_iff k]
      split
      · exact .ok (Concur.put alike.agree same k)
      · exact .error _
    | _ => simp [Action.ofChange, Action.same] at said

theorem wellKeyed_of_apply {change : Change} (applied : Members.apply change es = .ok fs)
    (keyed : (Value.set es).WellKeyed)
    (carried : ∀ v ∈ (Action.ofChange change).values, v.WellKeyed) : (Value.set fs).WellKeyed :=
  (Revises.changed rfl applied : Revises .set _ _ _).wellKeyed keyed carried

theorem Alike.apply (alike : Alike es fs) {change change' : Change}
    (carried : ∀ v ∈ (Action.ofChange change).values, v.WellKeyed)
    (carried' : ∀ v ∈ (Action.ofChange change').values, v.WellKeyed)
    (said : (Action.ofChange change).same (Action.ofChange change') = true) :
    Matches Alike (Members.apply change es) (Members.apply change' fs) := by
  have matched := alike.agree_apply said
  generalize applied : Members.apply change es = r, applied' : Members.apply change' fs = s
    at matched ⊢
  cases matched with
  | error fault => exact .error fault
  | ok agree =>
    exact .ok ⟨wellKeyed_of_apply applied alike.left carried,
      wellKeyed_of_apply applied' alike.right carried', agree⟩

end Members

namespace Value

variable {v w : Value}

theorem asSet?_of_isFlat (flat : v.isFlat = true) : v.asSet? = none := by
  cases v <;> first | rfl | cases flat

theorem asList?_of_isFlat (flat : v.isFlat = true) : v.asList? = none := by
  cases v <;> first | rfl | cases flat

theorem asSet?_alike (keyed : v.WellKeyed) (keyed' : w.WellKeyed) (same : v.Same w) :
    Option.Rel Members.Alike v.asSet? w.asSet? := by
  obtain ⟨make, agree⟩ := (same_iff keyed keyed').mp same
  cases oneMake_of_shell_eq make with
  | flat flat =>
    rw [asSet?_of_isFlat flat]
    exact .none
  | list | record => exact .none
  | set => exact .some ⟨keyed, keyed', fun k => agree (.inr k)⟩

theorem asList?_alike (same : v.Same w) :
    Option.Rel (fun vs ws => ∀ i : Nat, Concur vs[i]? ws[i]?) v.asList? w.asList? := by
  cases oneMake_of_shell_eq (shell_eq_of_same same) with
  | flat flat =>
    rw [asList?_of_isFlat flat]
    exact .none
  | set | record => exact .none
  | list => exact .some (same_list_iff.mp same)

theorem Concur.length_eq {vs ws : List Value} (agree : ∀ i : Nat, Concur vs[i]? ws[i]?) :
    vs.length = ws.length :=
  (forall₂_iff_getElem?.mpr agree).length_eq

theorem Concur.set {vs ws : List Value} (agree : ∀ i : Nat, Concur vs[i]? ws[i]?)
    (same : v.Same w) (place i : Nat) : Concur (vs.set place v)[i]? (ws.set place w)[i]? := by
  rw [List.getElem?_set, List.getElem?_set, Concur.length_eq agree]
  split
  · split
    · exact .some same
    · exact .none
  · exact agree i

theorem accepts_eq_of_same (declared : FieldType) (same : v.Same w) :
    declared.accepts v = declared.accepts w := by
  simp only [FieldType.accepts, type?_eq_of_same same]

end Value

namespace SharedObject

variable {index : UInt16} {declared : FieldType} {held held' v w : Value}

theorem changeSet_eq (index : UInt16) (declared : FieldType) (held : Value) (change : Change) :
    changeSet index declared held change =
      if declared ≠ .set then .error (.field index .notSet)
      else match held.asSet? with
        | some members => (Members.apply change members).map .set
        | none => .error (.field index .nullSet) := by
  cases held <;> rfl

theorem replaceItem_eq (index : UInt16) (declared : FieldType) (held : Value) (position : UInt32)
    (v : Value) : replaceItem index declared held position v =
      if declared ≠ .list then .error (.field index .notList)
      else match held.asList? with
        | some items =>
          if position.toNat < items.length then .ok (.list (items.set position.toNat v))
          else .error (.field index (.beyondList position))
        | none => .error (.field index .nullList) := by
  cases held <;> rfl

theorem changeSet_matches (keyed : held.WellKeyed) (keyed' : held'.WellKeyed)
    (same : held.Same held') (change change' : Change)
    (carried : ∀ v ∈ (Action.ofChange change).values, v.WellKeyed)
    (carried' : ∀ v ∈ (Action.ofChange change').values, v.WellKeyed)
    (said : (Action.ofChange change).same (Action.ofChange change') = true) :
    Matches Same (changeSet index declared held change)
      (changeSet index declared held' change') := by
  rw [changeSet_eq, changeSet_eq]
  split
  · exact .error _
  · have sets := Value.asSet?_alike keyed keyed' same
    generalize held.asSet? = es?, held'.asSet? = fs? at sets ⊢
    cases sets with
    | none => exact .error _
    | some alike =>
      exact (alike.apply carried carried' said).map fun es fs alike =>
        (Value.same_set_iff alike.left alike.right).mpr alike.agree

theorem replaceItem_matches (same : held.Same held') (said : v.Same w) (position : UInt32) :
    Matches Same (replaceItem index declared held position v)
      (replaceItem index declared held' position w) := by
  rw [replaceItem_eq, replaceItem_eq]
  split
  · exact .error _
  · have lists := Value.asList?_alike same
    generalize held.asList? = vs?, held'.asList? = ws? at lists ⊢
    cases lists with
    | none => exact .error _
    | @some vs ws agree =>
      simp only [Concur.length_eq agree]
      split
      · exact .ok (Value.same_list_iff.mpr fun i => Concur.set agree said position.toNat i)
      · exact .error _

theorem revised_matches (keyed : held.WellKeyed) (keyed' : held'.WellKeyed)
    (same : held.Same held') {action action' : Action}
    (carried : ∀ v ∈ action.values, v.WellKeyed) (carried' : ∀ v ∈ action'.values, v.WellKeyed)
    (said : action.same action' = true) :
    Matches Same (revised index declared held action) (revised index declared held' action') := by
  cases action with
  | fieldSet v =>
    cases action' with
    | fieldSet w =>
      have said : v.Same w := said
      simp only [revised, Value.accepts_eq_of_same declared said, Value.type?_eq_of_same said]
      split
      · exact .ok said
      · exact .error _
    | _ => simp [Action.same] at said
  | elementAdd k v =>
    cases action' with
    | elementAdd k' w =>
      exact changeSet_matches keyed keyed' same (.added k v) (.added k' w) carried carried' said
    | _ => simp [Action.same] at said
  | elementRemove k =>
    cases action' with
    | elementRemove k' =>
      exact changeSet_matches keyed keyed' same (.removed k) (.removed k') carried carried' said
    | _ => simp [Action.same] at said
  | elementUpdate k v =>
    cases action' with
    | elementUpdate k' w =>
      exact changeSet_matches keyed keyed' same (.updated k v) (.updated k' w) carried carried' said
    | _ => simp [Action.same] at said
  | listSet position v =>
    cases action' with
    | listSet position' w =>
      obtain ⟨rfl, placed⟩ : position = position' ∧ v.Same w := by
        simpa [Action.same, BEq.beq] using said
      exact replaceItem_matches same placed position
    | _ => simp [Action.same] at said
  | message name arguments =>
    cases action' with
    | message name' arguments' => exact .ok same
    | _ => simp [Action.same] at said

/-- Two objects of one type, at one stage and under one identifier, that hold the same. -/
structure Twins (o p : SharedObject) : Prop where
  id : o.id = p.id
  stage : o.stage = p.stage
  type : o.type = p.type
  keyed : ∀ v ∈ o.values, v.WellKeyed
  keyed' : ∀ v ∈ p.values, v.WellKeyed
  agree : ∀ i : Nat, Concur o.values[i]? p.values[i]?

variable {o p : SharedObject} {e f : Event}

theorem Twins.same (twins : o.Twins p) : o.same p = true := by
  simp [SharedObject.same, twins.type, Value.sameItems_iff, twins.agree]

theorem twins_of_same (id : o.id = p.id) (stage : o.stage = p.stage) (type : o.type = p.type)
    (keyed : ∀ v ∈ o.values, v.WellKeyed) (keyed' : ∀ v ∈ p.values, v.WellKeyed)
    (same : o.same p = true) : o.Twins p := by
  simp only [SharedObject.same, Bool.and_eq_true, Value.sameItems_iff] at same
  exact ⟨id, stage, type, keyed, keyed', same.2⟩

theorem isTransient_eq_of_same (said : e.same f = true) : e.isTransient = f.isTransient := by
  simp only [Event.same, Bool.and_eq_true] at said
  unfold Event.isTransient Event.kind
  cases h : e.action <;> cases h' : f.action <;> simp_all [Action.same, Action.kind]

theorem Twins.slots (twins : o.Twins p) (index : UInt16) :
    (∃ cause, o.slot index = .error cause ∧ p.slot index = .error cause) ∨
    ∃ d held held', o.type.field? index = some d ∧ p.type.field? index = some d ∧
      o.get? index = some held ∧ p.get? index = some held' ∧ held.Same held' := by
  have here := twins.agree index.toNat
  simp only [slot, twins.type]
  cases declared : p.type.field? index with
  | none => exact .inl ⟨.missing, rfl, rfl⟩
  | some d =>
    change Concur (o.get? index) (p.get? index) at here
    generalize there : o.get? index = held?, there' : p.get? index = held'? at here ⊢
    cases here with
    | none => exact .inl ⟨.missing, rfl, rfl⟩
    | some same => exact .inr ⟨d, _, _, rfl, rfl, rfl, rfl, same⟩

theorem Twins.values_match (twins : o.Twins p) (carried : e.WellKeyed) (carried' : f.WellKeyed)
    (said : e.same f = true) :
    Matches (fun q r => ∀ i : Nat, Concur q.values[i]? r.values[i]?) (o.apply e) (p.apply f) := by
  have heard := isTransient_eq_of_same said
  simp only [Event.same, Bool.and_eq_true, decide_eq_true_eq] at said
  obtain ⟨⟨object, field⟩, said⟩ := said
  -- Both events pass the same checks in the same order, and fail at the same one if at any.
  by_cases live : o.stage = .live
  swap
  · rw [apply_of_not_live live, apply_of_not_live (twins.stage ▸ live), twins.id, twins.stage]
    exact .error _
  have live' : p.stage = .live := twins.stage ▸ live
  by_cases named : e.object = o.id
  swap
  · rw [apply_of_other live named, apply_of_other live' (by rwa [← object, ← twins.id]), object]
    exact .error _
  have named' : f.object = p.id := by rw [← object, named, twins.id]
  cases lasting : e.isTransient with
  | true =>
    rw [apply_message live named lasting, apply_message live' named' (heard ▸ lasting)]
    exact .ok twins.agree
  | false =>
    have lasting' : f.isTransient = false := heard ▸ lasting
    rcases twins.slots e.field with ⟨cause, missing, missing'⟩ |
      ⟨d, held, held', declared, declared', there, there', same⟩
    · rw [field] at missing'
      rw [apply_no_slot live named lasting missing, apply_no_slot live' named' lasting' missing',
        field]
      exact .error _
    · have keyed := twins.keyed held (List.mem_of_getElem? there)
      have keyed' := twins.keyed' held' (List.mem_of_getElem? there')
      rw [field] at declared' there'
      rw [apply_slot live named lasting declared there,
        apply_slot live' named' lasting' declared' there', field]
      refine (revised_matches keyed keyed' same carried carried' said).map fun v w same i => ?_
      exact Concur.set twins.agree same f.field.toNat i

theorem Twins.apply (twins : o.Twins p) (keyed : e.WellKeyed) (keyed' : f.WellKeyed)
    (said : e.same f = true) : Matches Twins (o.apply e) (p.apply f) := by
  have matched := twins.values_match keyed keyed' said
  generalize applied : o.apply e = r, applied' : p.apply f = s at matched ⊢
  cases matched with
  | error fault => exact .error fault
  | @ok q r agree =>
    refine .ok ⟨?_, ?_, ?_, ?_, ?_, agree⟩
    · rw [apply_eq applied, apply_eq applied']
      exact twins.id
    · rw [stage_of_apply applied, stage_of_apply applied', twins.stage]
    · rw [type_of_apply applied, type_of_apply applied', twins.type]
    · exact wellKeyed_of_apply applied twins.keyed keyed
    · exact wellKeyed_of_apply applied' twins.keyed' keyed'

end SharedObject

theorem Event.same_self {e : Event} (keyed : e.WellKeyed) : e.same e = true := by
  have alone (v : Value) (mem : v ∈ e.action.values) : v.same v = true := v.same_self (keyed v mem)
  simp only [Event.same, decide_true, Bool.true_and]
  cases action : e.action with
  | message name arguments =>
    have all := Value.sameItems_self fun v mem =>
      alone v (by simpa [action, Action.values] using mem)
    simpa [Action.same] using all
  | _ => simp_all [Action.same, Action.values, BEq.beq]

namespace Watched

open Attempt (inTurn)

variable {w u : Watched} {e f : Event}

theorem perform_twins (twins : w.object.Twins u.object) (keyed : e.WellKeyed)
    (keyed' : f.WellKeyed) (said : e.same f = true) :
    ((perform (.apply e)).outcome w).1 = ((perform (.apply f)).outcome u).1 ∧
      ((perform (.apply e)).outcome w).2.object.Twins
        ((perform (.apply f)).outcome u).2.object := by
  have matched := twins.apply keyed keyed' said
  generalize applied : w.object.apply e = r, applied' : u.object.apply f = s at matched
  cases matched with
  | error fault =>
    have refused : perform (.apply e) w = .error fault w := apply_error applied
    have refused' : perform (.apply f) u = .error fault u := apply_error applied'
    rw [Attempt.outcome_error refused, Attempt.outcome_error refused']
    exact ⟨rfl, twins⟩
  | ok after =>
    have done : perform (.apply e) w = .ok () _ := apply_ok applied
    have done' : perform (.apply f) u = .ok () _ := apply_ok applied'
    rw [Attempt.outcome_ok done, Attempt.outcome_ok done']
    exact ⟨rfl, after⟩

def takeAll (events : List Event) : Watched → List (Except Fault Unit) × Watched :=
  inTurn (fun e => perform (.apply e)) events

/-- Two answers are the same, and so is what the objects hold that gave them. -/
def Concord {α : Type} (one other : α × Watched) : Prop :=
  one.1 = other.1 ∧ one.2.object.same other.2.object = true

/-- Live objects of one type and identifier that hold the same, but for the order of set members,
answer events that say the same alike, be it that both apply them or that both refuse them for the
same reason, and hold the same afterwards. So they do for any events in turn. -/
theorem same_throughout (w u : Watched) (live : w.object.stage = .live)
    (live' : u.object.stage = .live) (id : w.object.id = u.object.id)
    (type : w.object.type = u.object.type) (keyed : ∀ v ∈ w.object.values, v.WellKeyed)
    (keyed' : ∀ v ∈ u.object.values, v.WellKeyed) (same : w.object.same u.object = true) :
    (∀ e f : Event, e.WellKeyed → f.WellKeyed → e.same f = true →
      Concord ((perform (.apply e)).outcome w) ((perform (.apply f)).outcome u)) ∧
    (∀ es fs, List.Forall₂ (fun e f => e.WellKeyed ∧ f.WellKeyed ∧ e.same f = true) es fs →
      Concord (takeAll es w) (takeAll fs u)) ∧
    ∀ es : List Event, (∀ e ∈ es, e.WellKeyed) → Concord (takeAll es w) (takeAll es u) := by
  have twins : w.object.Twins u.object :=
    SharedObject.twins_of_same id (live.trans live'.symm) type keyed keyed' same
  have all (es fs : List Event)
      (said : List.Forall₂ (fun e f => e.WellKeyed ∧ f.WellKeyed ∧ e.same f = true) es fs) :
      Concord (takeAll es w) (takeAll fs u) := by
    have step (e f : Event) (w u : Watched) (said : e.WellKeyed ∧ f.WellKeyed ∧ e.same f = true)
        (twins : w.object.Twins u.object) :=
      perform_twins twins said.1 said.2.1 said.2.2
    obtain ⟨results, last⟩ := Attempt.inTurn_related step said twins
    exact ⟨results, last.same⟩
  refine ⟨fun e f keyed keyed' said => ?_, all, fun es keyed => ?_⟩
  · obtain ⟨result, after⟩ := perform_twins twins keyed keyed' said
    exact ⟨result, after.same⟩
  · exact all es es (List.forall₂_same.mpr fun e mem =>
      ⟨keyed e mem, keyed e mem, Event.same_self (keyed e mem)⟩)

end Watched

def rosterReversed : SharedObject :=
  { roster with
    values := [.null, .set [(.number 3, .null), (.number 2, .bool true), (.number 1, .null)]]
    listeners := [] }

def comings : List Event :=
  [leaves, ⟨⟨5⟩, 1, .elementAdd (.number 2) .null⟩, ⟨⟨5⟩, 1, .elementAdd (.number 2) .null⟩]

theorem Watched.same_throughout_roster :
    (roster.stage = .live ∧ rosterReversed.stage = .live ∧ roster.id = rosterReversed.id ∧
      roster.type = rosterReversed.type ∧ (∀ v ∈ roster.values, v.WellKeyed) ∧
      (∀ v ∈ rosterReversed.values, v.WellKeyed) ∧ roster.same rosterReversed = true) ∧
    Concord (takeAll comings ⟨roster, []⟩) (takeAll comings ⟨rosterReversed, []⟩) ∧
    (takeAll comings ⟨roster, []⟩).1 =
      [.ok (), .ok (), .error (.duplicateElement (Key.number 2).label)] := by
  have keyed : ∀ v ∈ roster.values, v.WellKeyed := by decide
  have keyed' : ∀ v ∈ rosterReversed.values, v.WellKeyed := by decide
  have same : roster.same rosterReversed = true := by decide +kernel
  have said : ∀ e ∈ comings, e.WellKeyed := by
    unfold comings Event.WellKeyed
    decide
  obtain ⟨-, -, alike⟩ := Watched.same_throughout ⟨roster, []⟩ ⟨rosterReversed, []⟩ rfl rfl rfl rfl
    keyed keyed' same
  exact ⟨⟨rfl, rfl, rfl, rfl, keyed, keyed', same⟩, alike comings said, rfl⟩

end SharedObjects
