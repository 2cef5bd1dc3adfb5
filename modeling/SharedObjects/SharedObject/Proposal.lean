import SharedObjects.SharedObject
set_option autoImplicit false

namespace SharedObjects.SharedObject

def expectField (o : SharedObject) (index : UInt16) (wanted : FieldType) : Except Fault Unit :=
  match o.type.field? index with
  | none => .error (.field index .missing)
  | some f =>
    if f.type = wanted then .ok () else .error (.field index (.wrongContainer f.name f.type wanted))

def expectAccepted (o : SharedObject) (index : UInt16) (v : Value) : Except Fault Unit :=
  match o.type.field? index with
  | none => .error (.field index .missing)
  | some f =>
    if f.type.accepts v then .ok () else .error (.field index (.misfit f.type v.type?))

/-- The event that asks this object for an action; messages belong to no field. -/
def propose (o : SharedObject) (index : UInt16) (action : Action) : Except Fault Event :=
  let event : Event := ⟨o.id, index, action⟩
  match action with
  | .fieldSet v => (o.expectAccepted index v).map (fun _ => event)
  | .elementAdd _ _ | .elementRemove _ | .elementUpdate _ _ =>
    (o.expectField index .set).map (fun _ => event)
  | .listSet _ _ => (o.expectField index .list).map (fun _ => event)
  | .message name arguments => .ok (.message o.id name arguments)

end SharedObjects.SharedObject
