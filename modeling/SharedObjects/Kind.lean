set_option autoImplicit false

namespace SharedObjects

inductive EventKind
  | fieldSet
  | elementAdd
  | elementRemove
  | elementUpdate
  | listSet
  | message
  deriving DecidableEq, Repr

namespace EventKind

def all : List EventKind := [fieldSet, elementAdd, elementRemove, elementUpdate, listSet, message]

def code : EventKind → UInt8
  | fieldSet => 1
  | elementAdd => 2
  | elementRemove => 3
  | elementUpdate => 4
  | listSet => 5
  | message => 6

def ofCode? (b : UInt8) : Option EventKind := all.find? (fun k => k.code = b)

@[simp] theorem ofCode?_code (k : EventKind) : ofCode? k.code = some k := by cases k <;> rfl

def isSetChange : EventKind → Bool
  | elementAdd | elementRemove | elementUpdate => true
  | _ => false

/-- Is it heard without changing any field? -/
def isTransient (k : EventKind) : Bool := k = message

def name : EventKind → String
  | fieldSet => "FieldSet"
  | elementAdd => "ElementAdd"
  | elementRemove => "ElementRemove"
  | elementUpdate => "ElementUpdate"
  | listSet => "ListSet"
  | message => "Message"

end EventKind

inductive MessageKind
  | snapshot
  | event
  | removed
  | subscribeFailed
  | forwardEvent
  deriving DecidableEq, Repr

namespace MessageKind

def all : List MessageKind := [snapshot, event, removed, subscribeFailed, forwardEvent]

def code : MessageKind → UInt8
  | snapshot => 1
  | event => 2
  | removed => 3
  | subscribeFailed => 4
  | forwardEvent => 5

def ofCode? (b : UInt8) : Option MessageKind := all.find? (fun k => k.code = b)

@[simp] theorem ofCode?_code (k : MessageKind) : ofCode? k.code = some k := by cases k <;> rfl

theorem code_of_ofCode? {b : UInt8} {k : MessageKind} (found : ofCode? b = some k) :
    k.code = b := by
  simpa using List.find?_some found

def name : MessageKind → String
  | snapshot => "Snapshot"
  | event => "Event"
  | removed => "Removed"
  | subscribeFailed => "SubscribeFailed"
  | forwardEvent => "ForwardEvent"

end MessageKind

end SharedObjects
