import SharedObjects.Members
import SharedObjects.Value.Equality
set_option autoImplicit false

namespace SharedObjects

inductive Action
  | fieldSet (value : Value)
  | elementAdd (key : Key) (value : Value)
  | elementRemove (key : Key)
  | elementUpdate (key : Key) (value : Value)
  | listSet (position : UInt32) (value : Value)
  | message (name : String) (arguments : List Value)
  deriving Repr

namespace Action

def kind : Action → EventKind
  | fieldSet _ => .fieldSet
  | elementAdd _ _ => .elementAdd
  | elementRemove _ => .elementRemove
  | elementUpdate _ _ => .elementUpdate
  | listSet _ _ => .listSet
  | message _ _ => .message

def change? : Action → Option Change
  | elementAdd key value => some (.added key value)
  | elementRemove key => some (.removed key)
  | elementUpdate key value => some (.updated key value)
  | _ => none

def ofChange : Change → Action
  | .added key value => elementAdd key value
  | .removed key => elementRemove key
  | .updated key value => elementUpdate key value

def same : Action → Action → Bool
  | fieldSet v, fieldSet w => v == w
  | elementAdd k v, elementAdd l w => k = l && v == w
  | elementRemove k, elementRemove l => k = l
  | elementUpdate k v, elementUpdate l w => k = l && v == w
  | listSet p v, listSet q w => p = q && v == w
  | message n vs, message m ws => n = m && Value.sameItems vs ws
  | _, _ => false

end Action

structure Event where
  object : ObjectId
  field : UInt16
  action : Action
  deriving Repr

namespace Event

def kind (e : Event) : EventKind := e.action.kind

def isTransient (e : Event) : Bool := e.kind.isTransient

def isSetChange (e : Event) : Bool := e.kind.isSetChange

def ofChange (object : ObjectId) (field : UInt16) (change : Change) : Event :=
  ⟨object, field, .ofChange change⟩

/-- A named message belongs to no field and carries index zero. -/
def message (object : ObjectId) (name : String) (arguments : List Value) : Event :=
  ⟨object, 0, .message name arguments⟩

def retarget (e : Event) (object : ObjectId) : Event := { e with object := object }

def same (e f : Event) : Bool :=
  e.object = f.object && e.field = f.field && e.action.same f.action

end Event

end SharedObjects
