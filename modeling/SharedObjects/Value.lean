import SharedObjects.Entries
import SharedObjects.FieldType
import SharedObjects.Key
import SharedObjects.Octets
/-!
Field values. A value knows the type it naturally belongs to, null belonging to none; a declared
type accepts its own values and, unless it is primitive, null. Floating point numbers are kept as
their bits, so that every payload survives.
-/
set_option autoImplicit false

namespace SharedObjects

/-- What a field holds. The members of a set stand in the order they were added. -/
inductive Value
  | null
  | bool (b : Bool)
  | byte (n : Int8)
  | short (n : Int16)
  | int (n : Int32)
  | long (n : Int64)
  | float (bits : UInt32)
  | double (bits : UInt64)
  | text (s : String)
  | bytes (bs : Octets)
  | list (items : List Value)
  | set (members : List (Key × Value))
  | record (type : String) (fields : List Value)
  deriving Repr

abbrev Members := Entries Key Value

namespace Value

def type? : Value → Option FieldType
  | null => none
  | bool _ => some .bool
  | byte _ => some .byte
  | short _ => some .short
  | int _ => some .int
  | long _ => some .long
  | float _ => some .float
  | double _ => some .double
  | text _ => some .text
  | bytes _ => some .bytes
  | list _ => some .list
  | set _ => some .set
  | record _ _ => some .record

def isNull (v : Value) : Bool := v.type?.isNone

def asBool? : Value → Option Bool
  | bool b => some b
  | _ => none

def asInteger? : Value → Option Int64
  | byte n => some n.toInt64
  | short n => some n.toInt64
  | int n => some n.toInt64
  | long n => some n
  | _ => none

def asText? : Value → Option String
  | text s => some s
  | _ => none

def asList? : Value → Option (List Value)
  | list items => some items
  | _ => none

def asSet? : Value → Option Members
  | set members => some members
  | _ => none

def asRecord? : Value → Option (String × List Value)
  | record type fields => some (type, fields)
  | _ => none

end Value

namespace FieldType

/-- Does a value fit a field declared so? -/
def accepts (declared : FieldType) (v : Value) : Bool :=
  match v.type? with
  | none => !declared.isPrimitive
  | some held => declared = .any || held = declared

def default : FieldType → Value
  | bool => .bool false
  | byte => .byte 0
  | short => .short 0
  | int => .int 0
  | long => .long 0
  | float => .float 0
  | double => .double 0
  | list => .list []
  | set => .set []
  | text | bytes | record | any => .null

theorem accepts_default (declared : FieldType) : declared.accepts declared.default = true := by
  cases declared <;> rfl

end FieldType

end SharedObjects
