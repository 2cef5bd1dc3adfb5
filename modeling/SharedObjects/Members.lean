import SharedObjects.Fault
import SharedObjects.Value
set_option autoImplicit false

namespace SharedObjects

/-- One change to the members of a set. -/
inductive Change
  | added (key : Key) (value : Value)
  | removed (key : Key)
  | updated (key : Key) (value : Value)
  deriving Repr

namespace Members

def add (key : Key) (value : Value) (members : Members) : Except Fault Members :=
  if members.contains key then .error (.duplicateElement key.label)
  else .ok (members ++ [(key, value)])

def remove (key : Key) (members : Members) : Except Fault Members :=
  if members.contains key then .ok (members.erase key) else .error (.notFound key.label)

def update (key : Key) (value : Value) (members : Members) : Except Fault Members :=
  if members.contains key then .ok (members.put key value) else .error (.notFound key.label)

def apply : Change → Members → Except Fault Members
  | .added key value, members => members.add key value
  | .removed key, members => members.remove key
  | .updated key value, members => members.update key value

def ofList (entries : List (Key × Value)) : Except Fault Members :=
  entries.foldlM (fun members e => add e.1 e.2 members) []

end Members

end SharedObjects
