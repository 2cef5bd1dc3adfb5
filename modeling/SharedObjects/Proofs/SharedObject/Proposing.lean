import SharedObjects.Proofs.SharedObject.Conformance
import SharedObjects.SharedObject.Proposal
/-!
Events proposed and events applied. What is asked of a field is refused for one of two reasons: the
type declares no field there that it could be asked of, or the field does not hold what it would
take. A proposal is refused for the first and never for the second, an event for either; so what was
proposed for an object can only be refused, by the same object, for what it holds.
-/
set_option autoImplicit false

namespace SharedObjects

namespace Action

/-- Why this cannot be done to a field declared so, whatever it holds. -/
inductive Misdirected (declared : FieldType) : Action → FieldFault → Prop
  | misfit {v : Value} : declared.accepts v = false →
    Misdirected declared (fieldSet v) (.misfit declared v.type?)
  | noSet {action : Action} : action.kind.isSetChange = true → declared ≠ .set →
    Misdirected declared action .notSet
  | noList {position : UInt32} {v : Value} : declared ≠ .list →
    Misdirected declared (listSet position v) .notList

/-- Why this cannot be done to what a field holds, though the field is declared as it should be. -/
inductive Unready (index : UInt16) : Value → Action → Fault → Prop
  | present {members : Members} {k : Key} {v : Value} : k ∈ Entries.keys members →
    Unready index (.set members) (elementAdd k v) (.duplicateElement k.label)
  | absent {members : Members} {k : Key} : k ∉ Entries.keys members →
    Unready index (.set members) (elementRemove k) (.notFound k.label)
  | unknown {members : Members} {k : Key} {v : Value} : k ∉ Entries.keys members →
    Unready index (.set members) (elementUpdate k v) (.notFound k.label)
  | nullSet {action : Action} : action.kind.isSetChange = true →
    Unready index .null action (.field index .nullSet)
  | beyond {items : List Value} {position : UInt32} {v : Value} : items.length ≤ position.toNat →
    Unready index (.list items) (listSet position v) (.field index (.beyondList position))
  | nullList {position : UInt32} {v : Value} :
    Unready index .null (listSet position v) (.field index .nullList)

variable {declared : FieldType} {action : Action} {cause : FieldFault}

theorem Misdirected.lasting (misdirected : action.Misdirected declared cause) :
    action.kind ≠ .message := by
  rintro message
  cases misdirected with
  | misfit | noList => cases message
  | noSet set other => simp [message, EventKind.isSetChange] at set

theorem lasting_of_suits (suits : action.suits declared = true) : action.kind ≠ .message := by
  rintro message
  cases action with
  | message name arguments => cases suits
  | _ => cases message

theorem exists_misdirected (lasting : action.kind ≠ .message)
    (unsuited : action.suits declared = false) : ∃ cause, action.Misdirected declared cause := by
  cases action with
  | fieldSet v => exact ⟨_, .misfit unsuited⟩
  | elementAdd k v | elementRemove k | elementUpdate k v =>
    exact ⟨_, .noSet rfl (by simpa [suits] using unsuited)⟩
  | listSet position v => exact ⟨_, .noList (by simpa [suits] using unsuited)⟩
  | message name arguments => exact absurd rfl lasting

end Action

namespace Members

theorem apply_eq_error_iff {change : Change} {members : Members} {fault : Fault} (index : UInt16) :
    apply change members = .error fault ↔
      (Action.ofChange change).Unready index (.set members) fault := by
  cases change with
  | added k v =>
    rw [apply, add_eq]
    constructor
    · intro refused
      split at refused <;> cases refused
      exact .present ‹_›
    · intro unready
      cases unready with
      | present present => rw [if_pos present]
  | removed k =>
    rw [apply, remove_eq]
    constructor
    · intro refused
      split at refused <;> cases refused
      exact .absent ‹_›
    · intro unready
      cases unready with
      | absent absent => rw [if_neg absent]
  | updated k v =>
    rw [apply, update_eq]
    constructor
    · intro refused
      split at refused <;> cases refused
      exact .unknown ‹_›
    · intro unready
      cases unready with
      | unknown absent => rw [if_neg absent]

end Members

namespace SharedObject

variable {o : SharedObject} {index : UInt16} {declared : FieldType} {held v : Value}
  {action : Action} {fault : Fault} {cause : FieldFault}

theorem changeSet_eq_error_iff (change : Change) (fits : FieldType.set.accepts held = true) :
    changeSet index .set held change = .error fault ↔
      (Action.ofChange change).Unready index held fault := by
  have null_or_set : held = .null ∨ ∃ members, held = .set members := by
    cases held <;> simp_all [FieldType.accepts, Value.type?]
  rcases null_or_set with rfl | ⟨members, rfl⟩
  · constructor
    · rintro ⟨⟩
      exact .nullSet (by cases change <;> rfl)
    · intro unready
      cases change <;> cases unready <;> rfl
  · rw [← Members.apply_eq_error_iff, changeSet, if_neg (by simp)]
    cases Members.apply change members <;> simp [Except.map]

theorem replaceItem_eq_error_iff {position : UInt32} (fits : FieldType.list.accepts held = true) :
    replaceItem index .list held position v = .error fault ↔
      (Action.listSet position v).Unready index held fault := by
  have null_or_list : held = .null ∨ ∃ items, held = .list items := by
    cases held <;> simp_all [FieldType.accepts, Value.type?]
  rcases null_or_list with rfl | ⟨items, rfl⟩
  · constructor
    · rintro ⟨⟩
      exact .nullList
    · intro unready
      cases unready with
      | nullSet set => cases set
      | nullList => rfl
  · simp only [replaceItem, ne_eq, not_true_eq_false, if_false]
    constructor
    · intro refused
      split at refused <;> cases refused
      rename_i outside
      exact .beyond (Nat.le_of_not_lt outside)
    · intro unready
      cases unready with
      | beyond outside => exact if_neg (Nat.not_lt.mpr outside)

theorem revised_eq_error_iff (fits : declared.accepts held = true)
    (suits : action.suits declared = true) :
    revised index declared held action = .error fault ↔ action.Unready index held fault := by
  cases action with
  | fieldSet w =>
    rw [revised, if_pos (by exact suits)]
    constructor
    · intro refused
      cases refused
    · intro unready
      cases unready with
      | nullSet set => cases set
  | elementAdd k w =>
    obtain rfl : declared = .set := by simpa [Action.suits] using suits
    exact changeSet_eq_error_iff (.added k w) fits
  | elementRemove k =>
    obtain rfl : declared = .set := by simpa [Action.suits] using suits
    exact changeSet_eq_error_iff (.removed k) fits
  | elementUpdate k w =>
    obtain rfl : declared = .set := by simpa [Action.suits] using suits
    exact changeSet_eq_error_iff (.updated k w) fits
  | listSet position w =>
    obtain rfl : declared = .list := by simpa [Action.suits] using suits
    exact replaceItem_eq_error_iff fits
  | message name arguments => cases suits

theorem revised_of_misdirected (misdirected : action.Misdirected declared cause) :
    revised index declared held action = .error (.field index cause) := by
  cases misdirected with
  | misfit refused => exact if_neg (by simp [refused])
  | noList other => exact if_pos other
  | noSet set other =>
    cases action with
    | elementAdd k v | elementRemove k | elementUpdate k v => exact if_pos other
    | _ => cases set

end SharedObject

inductive ResolvedType.Misdirects (t : ResolvedType) (index : UInt16) (action : Action) :
    FieldFault → Prop
  | missing : action.kind ≠ .message → t.field? index = none → Misdirects t index action .missing
  | declared {f : Field} {cause : FieldFault} : t.field? index = some f →
    action.Misdirected f.type cause → Misdirects t index action cause

def FieldFault.ofDeclaration : FieldFault → Bool
  | missing | misfit _ _ | notSet | notList => true
  | _ => false

namespace SharedObject

variable {o : SharedObject} {index : UInt16} {action : Action} {fault : Fault} {cause : FieldFault}
  {f : Field} {e : Event}

def asking (o : SharedObject) (index : UInt16) : Action → Event
  | .message name arguments => .message o.id name arguments
  | action => ⟨o.id, index, action⟩

theorem directed_or_misdirects (o : SharedObject) (index : UInt16) (action : Action) :
    (∃ name arguments, action = .message name arguments) ∨
    (∃ f, o.type.field? index = some f ∧ action.suits f.type = true) ∨
    ∃ cause, o.type.Misdirects index action cause := by
  by_cases lasting : action.kind = .message
  · exact .inl (by cases action <;> simp_all [Action.kind])
  · refine .inr ?_
    cases declared : o.type.field? index with
    | none => exact .inr ⟨_, .missing lasting declared⟩
    | some f =>
      cases suits : action.suits f.type with
      | true => exact .inl ⟨f, rfl, suits⟩
      | false =>
        obtain ⟨cause, misdirected⟩ := Action.exists_misdirected lasting suits
        exact .inr ⟨cause, .declared declared misdirected⟩

theorem propose_of_suits (declared : o.type.field? index = some f)
    (suits : action.suits f.type = true) : o.propose index action = .ok ⟨o.id, index, action⟩ := by
  cases action with
  | fieldSet v =>
    have fits : f.type.accepts v = true := suits
    simp [propose, expectAccepted, declared, fits, Except.map]
  | elementAdd k v | elementRemove k | elementUpdate k v | listSet position v =>
    simp [Action.suits] at suits
    simp [propose, expectField, declared, suits, Except.map]
  | message name arguments => cases suits

theorem propose_of_misdirects (misdirects : o.type.Misdirects index action cause) :
    ∃ fault, o.propose index action = .error fault := by
  cases misdirects with
  | missing lasting missing =>
    cases action with
    | message name arguments => exact absurd rfl lasting
    | _ => exact ⟨_, by simp [propose, expectAccepted, expectField, missing, Except.map]; rfl⟩
  | declared declared misdirected =>
    cases misdirected with
    | misfit refused =>
      exact ⟨_, by simp [propose, expectAccepted, declared, refused, Except.map]; rfl⟩
    | noList other => exact ⟨_, by simp [propose, expectField, declared, other, Except.map]; rfl⟩
    | noSet set other =>
      cases action with
      | elementAdd k v | elementRemove k | elementUpdate k v =>
        exact ⟨_, by simp [propose, expectField, declared, other, Except.map]; rfl⟩
      | _ => cases set

theorem held_of_declared (accepted : Value.Accepted o.values o.type.fields)
    (declared : o.type.field? index = some f) :
    ∃ held, o.get? index = some held ∧ f.type.accepts held = true := by
  obtain ⟨inside, rfl⟩ := List.getElem?_eq_some_iff.mp declared
  have within : index.toNat < o.values.length := accepted.length_eq ▸ inside
  exact ⟨_, List.getElem?_eq_getElem within, accepted.get within inside⟩

theorem not_isTransient (id : ObjectId) (index : UInt16) (lasting : action.kind ≠ .message) :
    Event.isTransient ⟨id, index, action⟩ = false := by
  show decide (action.kind = .message) = false
  exact decide_eq_false lasting

theorem apply_of_misdirects (live : o.stage = .live)
    (accepted : Value.Accepted o.values o.type.fields)
    (misdirects : o.type.Misdirects index action cause) :
    o.apply ⟨o.id, index, action⟩ = .error (.field index cause) := by
  cases misdirects with
  | missing lasting missing =>
    exact apply_no_slot live rfl (not_isTransient _ _ lasting) (by simp [slot, missing])
  | declared declared misdirected =>
    obtain ⟨held, there, -⟩ := held_of_declared accepted declared
    have lasting := not_isTransient o.id index misdirected.lasting
    rw [apply_slot live rfl lasting declared there, revised_of_misdirected misdirected]
    rfl

theorem apply_of_suits (live : o.stage = .live)
    (accepted : Value.Accepted o.values o.type.fields) (declared : o.type.field? index = some f)
    (suits : action.suits f.type = true) :
    o.apply ⟨o.id, index, action⟩ = .error fault ↔
      ∃ held, o.get? index = some held ∧ action.Unready index held fault := by
  obtain ⟨held, there, fits⟩ := held_of_declared accepted declared
  have lasting := not_isTransient o.id index (Action.lasting_of_suits suits)
  rw [apply_slot live rfl lasting declared there, there]
  simp only [Option.some.injEq, exists_eq_left', ← revised_eq_error_iff fits suits]
  cases revised index f.type held action <;> simp [Except.map]

theorem ofDeclaration_of_misdirects (misdirects : o.type.Misdirects index action cause) :
    cause.ofDeclaration = true := by
  cases misdirects with
  | missing => rfl
  | declared declared misdirected => cases misdirected <;> rfl

theorem not_ofDeclaration_of_unready {held : Value}
    (unready : action.Unready index held (.field index cause)) : cause.ofDeclaration = false := by
  cases unready <;> rfl

theorem misdirects_iff (live : o.stage = .live)
    (accepted : Value.Accepted o.values o.type.fields) :
    o.type.Misdirects index action cause ↔ cause.ofDeclaration = true ∧
      o.apply ⟨o.id, index, action⟩ = .error (.field index cause) := by
  constructor
  · intro misdirects
    exact ⟨ofDeclaration_of_misdirects misdirects, apply_of_misdirects live accepted misdirects⟩
  · rintro ⟨ofType, refused⟩
    rcases directed_or_misdirects o index action with
      ⟨name, arguments, rfl⟩ | ⟨f, declared, suits⟩ | ⟨found, misdirects⟩
    · rw [apply_message live rfl rfl] at refused
      cases refused
    · obtain ⟨held, there, unready⟩ := (apply_of_suits live accepted declared suits).mp refused
      rw [not_ofDeclaration_of_unready unready] at ofType
      cases ofType
    · rw [apply_of_misdirects live accepted misdirects] at refused
      cases refused
      exact misdirects

theorem propose_eq_error_iff :
    (∃ fault, o.propose index action = .error fault) ↔
      ∃ cause, o.type.Misdirects index action cause := by
  constructor
  · rintro ⟨fault, refused⟩
    rcases directed_or_misdirects o index action with
      ⟨name, arguments, rfl⟩ | ⟨f, declared, suits⟩ | misdirects
    · cases refused
    · rw [propose_of_suits declared suits] at refused
      cases refused
    · exact misdirects
  · rintro ⟨cause, misdirects⟩
    exact propose_of_misdirects misdirects

theorem refused_of_proposed (live : o.stage = .live)
    (accepted : Value.Accepted o.values o.type.fields) (proposed : o.propose index action = .ok e) :
    e = o.asking index action ∧ ∀ fault, o.apply e = .error fault ↔
      ∃ held, o.get? e.field = some held ∧ action.Unready e.field held fault := by
  rcases directed_or_misdirects o index action with
    ⟨name, arguments, rfl⟩ | ⟨f, declared, suits⟩ | ⟨cause, misdirects⟩
  · cases proposed
    refine ⟨rfl, fun fault => ?_⟩
    rw [apply_message live rfl rfl]
    constructor
    · intro refused
      cases refused
    · rintro ⟨held, -, unready⟩
      cases unready with
      | nullSet set => cases set
  · rw [propose_of_suits declared suits] at proposed
    cases proposed
    refine ⟨?_, fun fault => apply_of_suits live accepted declared suits⟩
    cases action with
    | message name arguments => cases suits
    | _ => rfl
  · obtain ⟨fault, refused⟩ := propose_of_misdirects misdirects
    rw [refused] at proposed
    cases proposed

/-- Where a live object satisfies its type, proposals and events draw the same line. A field is
proposed to be set exactly if the event is applied. A proposal is refused exactly if the type has no
field there that suits it, and so is the event then, for that field; the event is refused for a
declaration in no other case. An event that was proposed is refused by this object if a member with
the key is there already, or none is, or the set or list is null or ends before the position, and
for nothing else. A message can always be proposed and is always applied. -/
theorem proposals_agree (live : o.stage = .live)
    (accepted : Value.Accepted o.values o.type.fields) (index : UInt16) :
    (∀ v, (∃ e, o.propose index (.fieldSet v) = .ok e) ↔
      ∃ after, o.apply ⟨o.id, index, .fieldSet v⟩ = .ok after) ∧
    (∀ action, (∃ fault, o.propose index action = .error fault) ↔
      ∃ cause, o.type.Misdirects index action cause) ∧
    (∀ action cause, o.type.Misdirects index action cause ↔ cause.ofDeclaration = true ∧
      o.apply ⟨o.id, index, action⟩ = .error (.field index cause)) ∧
    (∀ action e, o.propose index action = .ok e → e = o.asking index action ∧
      ∀ fault, o.apply e = .error fault ↔
        ∃ held, o.get? e.field = some held ∧ action.Unready e.field held fault) ∧
    ∀ name arguments,
      o.propose index (.message name arguments) = .ok (.message o.id name arguments) ∧
      o.apply (.message o.id name arguments) = .ok o := by
  refine ⟨fun v => ?_, fun action => propose_eq_error_iff, fun action cause =>
    misdirects_iff live accepted, fun action e => refused_of_proposed live accepted,
    fun name arguments => ⟨rfl, apply_message live rfl rfl⟩⟩
  constructor
  · rintro ⟨e, proposed⟩
    obtain ⟨rfl, refused⟩ := refused_of_proposed live accepted proposed
    cases applied : o.apply (o.asking index (.fieldSet v)) with
    | ok after => exact ⟨after, applied⟩
    | error fault =>
      obtain ⟨held, -, unready⟩ := (refused fault).mp applied
      cases unready with
      | nullSet set => cases set
  · rintro ⟨after, applied⟩
    cases proposed : o.propose index (.fieldSet v) with
    | ok e => exact ⟨e, rfl⟩
    | error fault =>
      obtain ⟨cause, misdirects⟩ := propose_eq_error_iff.mp ⟨fault, proposed⟩
      rw [apply_of_misdirects live accepted misdirects] at applied
      cases applied

theorem proposals_agree_roster :
    let joins : Action := .elementAdd (.number 2) .null
    roster.stage = .live ∧ Value.Accepted roster.values roster.type.fields ∧
    (∃ e, roster.propose 1 joins = .ok e ∧
      roster.apply e = .error (.duplicateElement (Key.label (.number 2)))) ∧
    (∃ fault, roster.propose 0 joins = .error fault) ∧
    roster.apply ⟨roster.id, 0, joins⟩ = .error (.field 0 .notSet) := by
  intro joins
  have accepted : Value.Accepted roster.values roster.type.fields := .cons rfl (.cons rfl .nil)
  obtain ⟨-, -, -, refused, -⟩ := proposals_agree rfl accepted 1
  obtain ⟨-, proposed, misdirects, -⟩ := proposals_agree rfl accepted 0
  have twice : joins.Unready 1 (.set [(.number 1, .null), (.number 2, .bool true),
      (.number 3, .null)]) (.duplicateElement (Key.label (.number 2))) := .present (by decide)
  have title : rosterType.Misdirects 0 joins .notSet := .declared rfl (.noSet rfl (by decide))
  exact ⟨rfl, accepted, ⟨_, rfl, ((refused joins _ rfl).2 _).mpr ⟨_, rfl, twice⟩⟩,
    (proposed joins).mpr ⟨_, title⟩, ((misdirects joins _).mp title).2⟩

end SharedObject

end SharedObjects
