import SharedObjects.Catalog
import SharedObjects.Event
/-!
Shared objects. An object holds one value for every field of its type. Fields are written directly
until the object goes live; from then on they change by events alone, each of which is checked
against the type, changes one field or none, and is then told to every listener in turn. What is
refused changes nothing.
-/
set_option autoImplicit false

namespace SharedObjects

/-- An object of a distributed type; listeners are told in the order they came. -/
structure SharedObject where
  id : ObjectId
  stage : Stage
  type : ResolvedType
  values : List Value
  listeners : List String
  deriving Repr

/-- What a listener is told: the event, and the field it names as it stands afterwards. -/
structure Notice where
  listener : String
  object : ObjectId
  event : Event
  value : Option Value
  deriving Repr

namespace SharedObject

def ofType (type : ResolvedType) : Except Fault SharedObject :=
  if type.isDistributed then
    .ok ⟨.none, .initial, type, type.fields.map (fun f => f.type.default), []⟩
  else .error (.encoding (.notDistributed type.name))

def new (c : Catalog) (name : String) : Except Fault SharedObject :=
  match c.resolve name with
  | .ok type => ofType type
  | .error fault => .error fault

/-- Do two objects of one type hold the same values? Name, stage and listeners are left aside. -/
def same (o p : SharedObject) : Bool :=
  o.type.name = p.type.name && Value.sameItems o.values p.values

def get? (o : SharedObject) (index : UInt16) : Option Value := o.values[index.toNat]?

def get (o : SharedObject) (index : UInt16) : Except Fault Value :=
  match o.get? index with
  | some v => .ok v
  | none => .error (.field index .missing)

def getNamed? (o : SharedObject) (name : String) : Option Value :=
  (o.type.fieldIndex? name).bind o.get?

def put (o : SharedObject) (index : UInt16) (v : Value) : SharedObject :=
  { o with values := o.values.set index.toNat v }

def slot (o : SharedObject) (index : UInt16) : Except FieldFault (FieldType × Value) :=
  match o.type.field? index, o.get? index with
  | some f, some v => .ok (f.type, v)
  | _, _ => .error .missing

def set (o : SharedObject) (index : UInt16) (v : Value) : Except Fault SharedObject :=
  if !o.stage.allowsDirectWrites then .error (.directWrite o.id)
  else
    match o.slot index with
    | .error cause => .error (.field index cause)
    | .ok (declared, _) =>
      if declared.accepts v then .ok (o.put index v)
      else .error (.field index (.misfit declared v.type?))

def setNamed (o : SharedObject) (name : String) (v : Value) : Except Fault SharedObject :=
  match o.type.fieldIndex? name with
  | some index => o.set index v
  | none => .error (.notFound (o.type.name ++ "." ++ name))

def setAll (o : SharedObject) (fields : List (UInt16 × Value)) : Except Fault SharedObject :=
  fields.foldlM (fun o f => o.set f.1 f.2) o

def make (c : Catalog) (name : String) (fields : List (UInt16 × Value)) :
    Except Fault SharedObject :=
  match new c name with
  | .ok o => o.setAll fields
  | .error fault => .error fault

def listen (o : SharedObject) (listener : String) : SharedObject :=
  { o with listeners := o.listeners ++ [listener] }

def clearListeners (o : SharedObject) : SharedObject := { o with listeners := [] }

def goLive (o : SharedObject) (id : ObjectId) : Except Fault SharedObject :=
  if o.stage = .unregistered then .ok { o with id := id, stage := .live }
  else .error (.alreadyRegistered o.id)

def moveTo (o : SharedObject) (stage : Stage) : Except Fault SharedObject :=
  if o.stage.canBecome stage then .ok { o with stage := stage } else .error (.notLive o.id o.stage)

def beginUnregister (o : SharedObject) : Except Fault SharedObject := o.moveTo .unregistering

def markRemoved (o : SharedObject) : Except Fault SharedObject := o.moveTo .removed

def changeSet (index : UInt16) (declared : FieldType) (held : Value) (change : Change) :
    Except Fault Value :=
  if declared ≠ .set then .error (.field index .notSet)
  else
    match held with
    | .set members => (Members.apply change members).map .set
    | _ => .error (.field index .nullSet)

def replaceItem (index : UInt16) (declared : FieldType) (held : Value) (position : UInt32)
    (v : Value) : Except Fault Value :=
  if declared ≠ .list then .error (.field index .notList)
  else
    match held with
    | .list items =>
      if position.toNat < items.length then .ok (.list (items.set position.toNat v))
      else .error (.field index (.beyondList position))
    | _ => .error (.field index .nullList)

/-- What a field declared so holds after an action, having held a value before. -/
def revised (index : UInt16) (declared : FieldType) (held : Value) : Action → Except Fault Value
  | .fieldSet v =>
    if declared.accepts v then .ok v else .error (.field index (.misfit declared v.type?))
  | .elementAdd k v => changeSet index declared held (.added k v)
  | .elementRemove k => changeSet index declared held (.removed k)
  | .elementUpdate k v => changeSet index declared held (.updated k v)
  | .listSet position v => replaceItem index declared held position v
  | .message _ _ => .ok held

def apply (o : SharedObject) (e : Event) : Except Fault SharedObject :=
  if !o.stage.allowsEvents then .error (.notLive o.id o.stage)
  else if e.object ≠ o.id then .error (.unknownObject e.object)
  else if e.isTransient then .ok o
  else
    match o.slot e.field with
    | .error cause => .error (.field e.field cause)
    | .ok (declared, held) => (revised e.field declared held e.action).map (o.put e.field)

def notices (o : SharedObject) (e : Event) : List Notice :=
  o.listeners.map (fun listener => ⟨listener, o.id, e, o.get? e.field⟩)

end SharedObject

end SharedObjects
