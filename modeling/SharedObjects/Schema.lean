import SharedObjects.FieldType
set_option autoImplicit false

namespace SharedObjects

def rootName : String := "presents.dobj.DObject"

/-- Records travel inside fields; distributed objects have a life and subscribers. -/
inductive TypeKind
  | streamable
  | distributed
  deriving DecidableEq, Repr

namespace TypeKind

def all : List TypeKind := [streamable, distributed]

def name : TypeKind → String
  | streamable => "Streamable"
  | distributed => "DObject"

end TypeKind

structure Field where
  name : String
  type : FieldType
  deriving DecidableEq, Repr

structure Schema where
  name : String
  kind : TypeKind
  parent : Option String
  fields : List Field
  deriving DecidableEq, Repr

namespace Schema

def streamable (name : String) : Schema := ⟨name, .streamable, none, []⟩

def distributed (name : String) : Schema := ⟨name, .distributed, some rootName, []⟩

def extending (s : Schema) (parent : String) : Schema := { s with parent := some parent }

def withField (s : Schema) (name : String) (type : FieldType) : Schema :=
  { s with fields := s.fields ++ [⟨name, type⟩] }

end Schema

/-- A type with its inherited fields in front; ancestors stand nearest first. -/
structure ResolvedType where
  name : String
  kind : TypeKind
  ancestors : List String
  fields : List Field
  deriving DecidableEq, Repr

namespace ResolvedType

def root : ResolvedType := ⟨rootName, .distributed, [], []⟩

def isDistributed (t : ResolvedType) : Bool := t.kind = .distributed

def field? (t : ResolvedType) (index : UInt16) : Option Field := t.fields[index.toNat]?

def fieldIndex? (t : ResolvedType) (name : String) : Option UInt16 :=
  (t.fields.findIdx? (fun f => f.name = name)).map UInt16.ofNat

def isA (t : ResolvedType) (name : String) : Bool := t.name = name || t.ancestors.contains name

end ResolvedType

end SharedObjects
