import SharedObjects.Value
import SharedObjects.Text.Decimal
set_option autoImplicit false

namespace SharedObjects

def bracketed (items : List String) : String := "[" ++ ", ".intercalate items ++ "]"

def Key.describe : Key → String
  | number n => "Int(" ++ toString n.toInt ++ ")"
  | text s => "Str(" ++ Quoted.quote s ++ ")"

namespace Value

mutual

def describe : Value → String
  | null => "Null"
  | bool b => "Bool(" ++ (if b then "true" else "false") ++ ")"
  | byte n => "Byte(" ++ toString n.toInt ++ ")"
  | short n => "Short(" ++ toString n.toInt ++ ")"
  | int n => "Int(" ++ toString n.toInt ++ ")"
  | long n => "Long(" ++ toString n.toInt ++ ")"
  | float bits => "Float(" ++ Decimal.single.text bits.toNat ++ ")"
  | double bits => "Double(" ++ Decimal.double.text bits.toNat ++ ")"
  | text s => "String(" ++ Quoted.quote s ++ ")"
  | bytes bs => "Bytes(" ++ bracketed (bs.map (fun b => Nat.repr b.toNat)) ++ ")"
  | list items => "List(" ++ bracketed (describeItems items) ++ ")"
  | set members =>
    "Set(DSet \x7b entries: " ++ bracketed (describeMembers members) ++ " \x7d)"
  | record type fields =>
    "Object(StreamObject \x7b type_name: " ++ Quoted.quote type ++ ", fields: " ++
      bracketed (describeItems fields) ++ " \x7d)"
  termination_by structural v => v

def describeItems : List Value → List String
  | [] => []
  | v :: vs => describe v :: describeItems vs
  termination_by structural v => v

def describeMembers : List (Key × Value) → List String
  | [] => []
  | (k, v) :: es =>
    ("DSetEntry \x7b key: " ++ k.describe ++ ", value: " ++ describe v ++ " \x7d") ::
      describeMembers es
  termination_by structural v => v

end

end Value

end SharedObjects
