import SharedObjects.SharedObject
import SharedObjects.Wire.ValueReader
import SharedObjects.Wire.ValueWriter
set_option autoImplicit false

namespace SharedObjects.SharedObject

def writeFields (c : Catalog) (o : SharedObject) : Write Unit := Write.fields c o.type o.values

def writeSnapshot (c : Catalog) (o : SharedObject) : Write Unit := do
  let _ ← Write.typeTag c o.type.name
  o.writeFields c

def snapshot (c : Catalog) (o : SharedObject) : Except Fault Octets :=
  Write.bytesOf (o.writeSnapshot c)

def readFields (c : Catalog) (o : SharedObject) : Read SharedObject := do
  return { o with values := ← Read.fields c o.type }

def readSnapshot (c : Catalog) (id : ObjectId) : Read SharedObject := do
  match ← Read.typeTag c with
  | none => Read.fail .nullSnapshot
  | some type =>
    if !type.isDistributed then Read.fail (.notDistributed type.name)
    return ⟨id, .live, type, ← Read.fields c type, []⟩

def ofSnapshot (c : Catalog) (id : ObjectId) (bytes : Octets) : Except Fault SharedObject :=
  Read.whole (readSnapshot c id) bytes

end SharedObjects.SharedObject
