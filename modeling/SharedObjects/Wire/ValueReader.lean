import SharedObjects.Catalog
import SharedObjects.Members
import SharedObjects.Wire.Input
/-!
Values from bytes. Reading follows the declared type, and the kind in the bytes where any value may
stand. It never trusts the bytes: unknown kinds and types, codes without a declaration, repeated
keys and nesting beyond the limit are refused where they stand.
-/
set_option autoImplicit false

namespace SharedObjects.Read

/-- Reads a value as a field of the given type holds it. -/
abbrev ValueReader := FieldType → Read Value

/-- The type behind a code, declared here or before; null has code zero. -/
def typeTag (c : Catalog) : Read (Option ResolvedType) := do
  let code ← int16
  if code = 0 then return none
  else if code < 0 then
    let name ← text
    match c.get? name with
    | none => throw (.unknownType name)
    | some type =>
      if code = Int16.minValue then fail (.typeCode code)
      modify (fun input =>
        { input with types := input.types.insert (-code.toInt).toNat type })
      return some type
  else
    match (← get).types[code.toInt.toNat]? with
    | some type => return some type
    | none => fail (.undeclaredCode code)

def key : Read Key := do
  let kind ← byte
  if kind = 1 then return .number (← int64)
  else if kind = 2 then return .text (← text)
  else fail (.keyKind kind)

def inside {α : Type} (below : Option ValueReader) (contents : ValueReader → Read α) : Read α :=
  match below with
  | none => fail .nestingTooDeep
  | some value => deeper (contents value)

def memberOnto (value : ValueReader) (es : Members) : Read Members := do
  let k ← key
  let v ← value .any
  match es.add k v with
  | .ok es => return es
  | .error _ => fail (.repeatedKey k)

def membersWith (below : Option ValueReader) : Read Members :=
  inside below fun value => do
    let n ← length
    (List.replicate n ()).foldlM (fun es _ => memberOnto value es) []

def recordWith (c : Catalog) (below : Option ValueReader) :
    Read (Option (String × List Value)) := do
  match ← typeTag c with
  | none => return none
  | some type =>
    if type.isDistributed then fail (.distributedValue type.name)
    let values ← inside below fun value => type.fields.mapM (fun f => value f.type)
    return some (type.name, values)

/-- What follows the mark or kind of a value of the given type. -/
def payloadWith (c : Catalog) (below : Option ValueReader) : ValueReader
  | .bool => return .bool (← bool)
  | .byte => return .byte (← int8)
  | .short => return .short (← int16)
  | .int => return .int (← int32)
  | .long => return .long (← int64)
  | .float => return .float (← uint32)
  | .double => return .double (← uint64)
  | .text => return .text (← text)
  | .bytes => return .bytes (← byteString)
  | .list => inside below fun value => do
    let n ← length
    return .list (← times n (value .any))
  | .set => return .set (← membersWith below)
  | .record => do
    match ← recordWith c below with
    | some (name, values) => return .record name values
    | none => fail .nullRecord
  | .any => fail (.valueKind FieldType.any.code)

def valueWith (c : Catalog) (below : Option ValueReader) : ValueReader
  | .any => do
    let kind ← byte
    if kind = 0 then return .null
    else
      match FieldType.ofCode? kind with
      | some type => payloadWith c below type
      | none => fail (.valueKind kind)
  | .record => do
    match ← recordWith c below with
    | some (name, values) => return .record name values
    | none => return .null
  | type =>
    if type.isPrimitive then payloadWith c below type
    else do
      if ← bool then payloadWith c below type else return .null

/-- The reader for what stands one level down, if so many more levels may be opened. -/
def below (c : Catalog) : Nat → Option ValueReader
  | 0 => none
  | room + 1 => some (valueWith c (below c room))

def belowHere (c : Catalog) : Read (Option ValueReader) := do
  return below c (maxNesting - (← get).depth)

theorem belowHere_bind {α : Type} (c : Catalog) (k : Option ValueReader → Read α) :
    belowHere c >>= k =
      MonadState.get >>= fun input => k (below c (maxNesting - input.depth)) := by
  simp [belowHere]

def value (c : Catalog) (type : FieldType) : Read Value := do
  valueWith c (← belowHere c) type

def any (c : Catalog) : Read Value := value c .any

def record (c : Catalog) : Read (Option (String × List Value)) := do
  recordWith c (← belowHere c)

def fields (c : Catalog) (type : ResolvedType) : Read (List Value) :=
  type.fields.mapM (fun f => value c f.type)

def members (c : Catalog) : Read Members := do
  membersWith (← belowHere c)

def member (c : Catalog) : Read (Key × Value) := do
  let k ← key
  let v ← any c
  return (k, v)

end SharedObjects.Read

namespace SharedObjects

def Value.decode (c : Catalog) (type : FieldType) (bytes : Octets) : Except Fault Value :=
  Read.whole (Read.value c type) bytes

def Members.decode (c : Catalog) (bytes : Octets) : Except Fault Members :=
  Read.whole (Read.members c) bytes

end SharedObjects
