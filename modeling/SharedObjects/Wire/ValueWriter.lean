import SharedObjects.Catalog
import SharedObjects.Wire.Output
/-!
Values in bytes. A value written against its declared type carries no more than that type leaves
open: primitives stand bare, other values behind a mark that they are present, records behind the
code of their type, with zero for null. Where any value may stand, its kind comes first. The first
record of a type declares a code, the next one of its number, with its name; later ones use it.
-/
set_option autoImplicit false

namespace SharedObjects.Write

/-- The code of a registered type, declared at its first use in the message. -/
def typeTag (c : Catalog) (name : String) : Write ResolvedType := do
  match c.get? name with
  | none => fail (.uncoded name)
  | some type =>
    match (← get).codes[name]? with
    | some code =>
      int16 (Int16.ofNat code)
      return type
    | none =>
      let code := (← get).codes.size + 1
      if code > maxTypeCode then fail .tooManyTypes
      int16 (-Int16.ofNat code)
      text name
      modify (fun out => { out with codes := out.codes.insert name code })
      return type

def key : Key → Write Unit
  | .number n => do
    byte 1
    int64 n
  | .text s => do
    byte 2
    text s

def tagged (v : Value) (payload : Write Unit) : Write Unit :=
  match v.type? with
  | none => byte 0
  | some type => do
    byte type.code
    payload

def declared (type : FieldType) (v : Value) (payload : Write Unit) : Write Unit :=
  if !type.accepts v then fail (.misfit type v.type?)
  else
    match type with
    | .any => tagged v payload
    | .record => if v.isNull then int16 0 else payload
    | _ =>
      if type.isPrimitive then payload
      else if v.isNull then byte 0
      else do
        byte 1
        payload

def expectFields (type : ResolvedType) (given : Nat) : Write Unit :=
  if given = type.fields.length then pure ()
  else fail (.fieldCount type.name type.fields.length given)

/-- Refuses the types of distributed objects, which are never values. -/
def expectStreamable (c : Catalog) (name : String) : Write Unit :=
  match c.get? name with
  | some type => if type.isDistributed then fail (.distributedValue name) else pure ()
  | none => pure ()

mutual

/-- What follows the mark or kind of a value that is not null. -/
def payload (c : Catalog) : Value → Write Unit
  | .null => fail .nullPayload
  | .bool b => bool b
  | .byte n => int8 n
  | .short n => int16 n
  | .int n => int32 n
  | .long n => int64 n
  | .float bits => uint32 bits
  | .double bits => uint64 bits
  | .text s => text s
  | .bytes bs => byteString bs
  | .list items => nested do
    length items.length
    itemPayloads c items
  | .set members => nested do
    length members.length
    memberPayloads c members
  | .record name values => do
    expectStreamable c name
    nested do
      let type ← typeTag c name
      expectFields type values.length
      fieldPayloads c type.name values type.fields
  termination_by structural v => v

def itemPayloads (c : Catalog) : List Value → Write Unit
  | [] => pure ()
  | v :: vs => do
    tagged v (payload c v)
    itemPayloads c vs
  termination_by structural vs => vs

def memberPayloads (c : Catalog) : List (Key × Value) → Write Unit
  | [] => pure ()
  | (k, v) :: es => do
    key k
    tagged v (payload c v)
    memberPayloads c es
  termination_by structural es => es

def fieldPayloads (c : Catalog) (type : String) : List Value → List Field → Write Unit
  | [], _ => pure ()
  | v :: vs, fields =>
    match fields with
    | [] => pure ()
    | f :: fs => do
      within type f.name (declared f.type v (payload c v))
      fieldPayloads c type vs fs
  termination_by structural vs => vs

end

def value (c : Catalog) (type : FieldType) (v : Value) : Write Unit := declared type v (payload c v)

def any (c : Catalog) (v : Value) : Write Unit := tagged v (payload c v)

def record (c : Catalog) (name : String) (values : List Value) : Write Unit :=
  payload c (.record name values)

def fields (c : Catalog) (type : ResolvedType) (values : List Value) : Write Unit := do
  expectFields type values.length
  fieldPayloads c type.name values type.fields

def members (c : Catalog) (es : Members) : Write Unit := payload c (.set es)

def member (c : Catalog) (k : Key) (v : Value) : Write Unit := do
  key k
  any c v

end SharedObjects.Write

namespace SharedObjects

def Value.encode (c : Catalog) (type : FieldType) (v : Value) : Except Fault Octets :=
  Write.bytesOf (Write.value c type v)

def Members.encode (c : Catalog) (es : Members) : Except Fault Octets :=
  Write.bytesOf (Write.members c es)

end SharedObjects
