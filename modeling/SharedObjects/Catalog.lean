import Std.Data.HashMap
import Std.Data.HashSet
import SharedObjects.Fault
import SharedObjects.Value
/-!
The types that can travel, by name. A catalog starts with the root of the distributed types and
grows by one type at a time; a type's parent is there before it, so inherited fields are resolved
when the type is registered, and nothing that is registered ever changes.
-/
set_option autoImplicit false

namespace SharedObjects

def firstRepeat (seen : Std.HashSet String) : List String → Option String
  | [] => none
  | name :: names =>
    if seen.contains name then some name else firstRepeat (seen.insert name) names

structure Catalog where
  types : Std.HashMap String ResolvedType

namespace Catalog

def initial : Catalog := ⟨(∅ : Std.HashMap String ResolvedType).insert rootName .root⟩

def get? (c : Catalog) (name : String) : Option ResolvedType := c.types[name]?

def contains (c : Catalog) (name : String) : Bool := c.types.contains name

def size (c : Catalog) : Nat := c.types.size

def isEmpty (c : Catalog) : Bool := c.types.isEmpty

def names (c : Catalog) : List String := c.types.keys.mergeSort (fun a b => a ≤ b)

def resolve (c : Catalog) (name : String) : Except Fault ResolvedType :=
  match c.get? name with
  | some t => .ok t
  | none => .error (.unknownType name)

/-- What a schema inherits: the names of its ancestors and their fields. -/
def inherited (c : Catalog) (s : Schema) : Except EncodingFault (List String × List Field) :=
  match s.parent with
  | some parent =>
    match c.get? parent with
    | none => .error (.parentMissing s.name parent)
    | some p =>
      if p.kind = s.kind then .ok (p.name :: p.ancestors, p.fields)
      else .error (.kindMismatch s.name s.kind p.name p.kind)
  | none => if s.kind = .distributed then .error (.rootless s.name) else .ok ([], [])

/-- A schema with its inherited fields in front. -/
def resolution (c : Catalog) (s : Schema) : Except EncodingFault ResolvedType :=
  if s.name = "" then .error .unnamedType
  else if c.contains s.name then .error (.typeTwice s.name)
  else
    match c.inherited s with
    | .error cause => .error cause
    | .ok (ancestors, above) =>
      let fields := above ++ s.fields
      if fields.length > maxFields then .error (.tooManyFields s.name)
      else
        match firstRepeat ∅ (fields.map Field.name) with
        | some field => .error (.fieldTwice s.name field)
        | none => .ok ⟨s.name, s.kind, ancestors, fields⟩

def register (c : Catalog) (s : Schema) : Except Fault (Catalog × ResolvedType) :=
  match c.resolution s with
  | .error cause => .error (.encoding cause)
  | .ok t => .ok (⟨c.types.insert s.name t⟩, t)

def registerAll (c : Catalog) (schemas : List Schema) : Except Fault Catalog :=
  schemas.foldlM (fun c s => (c.register s).map Prod.fst) c

def instantiate (c : Catalog) (name : String) : Except Fault Value :=
  match c.resolve name with
  | .error fault => .error fault
  | .ok t =>
    if t.isDistributed then .error (.encoding (.notStreamable name))
    else .ok (.record name (t.fields.map (fun f => f.type.default)))

end Catalog

end SharedObjects
