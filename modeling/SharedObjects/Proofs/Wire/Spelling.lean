import Mathlib.Data.List.Forall2
import SharedObjects.Proofs.Value.Parts
import SharedObjects.Proofs.Wire.Codes
/-!
How values are spelled. A spelling is the bytes that stand for a value where certain codes are in
use, and it is only good for values that the format can carry. That a message holds the spellings of
its values one after the other, and that reading takes them back, is shown elsewhere.
-/
set_option autoImplicit false

namespace SharedObjects

def Octets.ofInt16 (n : Int16) : Octets := ofNat 2 n.toUInt16.toNat

def Octets.ofText (s : String) : Octets := ofNat 2 (Utf8.encode s).length ++ Utf8.encode s

def Octets.ofByteString (bytes : Octets) : Octets := ofNat 4 bytes.length ++ bytes

def Codes.tag (codes : Codes) (name : String) : Octets :=
  match codes[name]? with
  | some code => Octets.ofInt16 (Int16.ofNat code)
  | none => Octets.ofInt16 (-Int16.ofNat (codes.size + 1)) ++ Octets.ofText name

def Key.wire : Key → Octets
  | number n => 1 :: Octets.ofNat 8 n.toUInt64.toNat
  | text s => 2 :: Octets.ofText s

def Key.Fits : Key → Prop
  | number _ => True
  | text s => s.utf8ByteSize ≤ maxTextSize

def Catalog.fieldsOf (c : Catalog) (name : String) : List Field :=
  match c.get? name with
  | some type => type.fields
  | none => []

namespace Value

def taggedWire (v : Value) (payload : Octets) : Octets :=
  match v.type? with
  | none => [0]
  | some type => type.code :: payload

def declaredWire (type : FieldType) (v : Value) (payload : Octets) : Octets :=
  match type with
  | .any => taggedWire v payload
  | .record => if v.isNull then Octets.ofInt16 0 else payload
  | _ =>
    if type.isPrimitive then payload
    else if v.isNull then [0]
    else 1 :: payload

mutual

/-- What follows the mark or kind of a value where these codes are in use. -/
def wire (c : Catalog) (codes : Codes) : Value → Octets
  | null => []
  | bool b => [if b then 1 else 0]
  | byte n => [n.toUInt8]
  | short n => Octets.ofInt16 n
  | int n => Octets.ofNat 4 n.toUInt32.toNat
  | long n => Octets.ofNat 8 n.toUInt64.toNat
  | float bits => Octets.ofNat 4 bits.toNat
  | double bits => Octets.ofNat 8 bits.toNat
  | text s => Octets.ofText s
  | bytes bs => Octets.ofByteString bs
  | list items => Octets.ofNat 4 items.length ++ itemsWire c codes items
  | set members => Octets.ofNat 4 members.length ++ membersWire c codes members
  | record name values =>
    codes.tag name ++ fieldsWire c (codes.use name) values (c.fieldsOf name)
  termination_by structural v => v

def itemsWire (c : Catalog) (codes : Codes) : List Value → Octets
  | [] => []
  | v :: vs => taggedWire v (wire c codes v) ++ itemsWire c (codes.useAll v.typeNames) vs
  termination_by structural vs => vs

def membersWire (c : Catalog) (codes : Codes) : List (Key × Value) → Octets
  | [] => []
  | (k, v) :: es =>
    k.wire ++ (taggedWire v (wire c codes v) ++ membersWire c (codes.useAll v.typeNames) es)
  termination_by structural es => es

def fieldsWire (c : Catalog) (codes : Codes) : List Value → List Field → Octets
  | [], _ => []
  | v :: vs, fields =>
    match fields with
    | [] => []
    | f :: fs =>
      declaredWire f.type v (wire c codes v) ++ fieldsWire c (codes.useAll v.typeNames) vs fs
  termination_by structural vs => vs

end

def Accepted : List Value → List Field → Prop := List.Forall₂ (fun v f => f.type.accepts v = true)

/-- Has the wire room for a value, the values inside it left aside? Records are of registered types
that are no objects, with as many values as fields, and each field accepts its own. -/
def Fits (c : Catalog) : Value → Prop
  | text s => s.utf8ByteSize ≤ maxTextSize
  | bytes bs => bs.length ≤ maxLength
  | list items => items.length ≤ maxLength
  | set members => members.length ≤ maxLength ∧ ∀ e ∈ members, e.1.Fits
  | record name values => ∃ type, c.get? name = some type ∧ type.isDistributed = false ∧
      name.utf8ByteSize ≤ maxTextSize ∧ Accepted values type.fields
  | _ => True

/-- The wire has room for a value and all values inside it. -/
def Streamable (c : Catalog) (v : Value) : Prop := ∀ w ∈ v.parts, w.Fits c

end Value

end SharedObjects
