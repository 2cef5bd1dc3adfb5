set_option autoImplicit false

namespace SharedObjects

inductive FieldType
  | bool
  | byte
  | short
  | int
  | long
  | float
  | double
  | text
  | bytes
  | list
  | set
  | record
  | any
  deriving DecidableEq, Repr

namespace FieldType

def all : List FieldType :=
  [bool, byte, short, int, long, float, double, text, bytes, list, set, record, any]

def code : FieldType → UInt8
  | bool => 1
  | byte => 2
  | short => 3
  | int => 4
  | long => 5
  | float => 6
  | double => 7
  | text => 8
  | bytes => 9
  | list => 10
  | set => 11
  | record => 12
  | any => 13

def ofCode? (b : UInt8) : Option FieldType := all.find? (fun t => t.code = b)

@[simp] theorem ofCode?_code (t : FieldType) : ofCode? t.code = some t := by cases t <;> rfl

/-- Numbers and truth values: they are always present. -/
def isPrimitive : FieldType → Bool
  | bool | byte | short | int | long | float | double => true
  | _ => false

def name : FieldType → String
  | bool => "Bool"
  | byte => "Byte"
  | short => "Short"
  | int => "Int"
  | long => "Long"
  | float => "Float"
  | double => "Double"
  | text => "String"
  | bytes => "Bytes"
  | list => "List"
  | set => "Set"
  | record => "Object"
  | any => "Any"

end FieldType

end SharedObjects
