import OpenCrud.Schema.Introspection

/-!
# Looking into schemas

What a finished schema answers when it is asked for a type: its own types, and the types that describe
schemas.
-/

namespace OpenCrud

namespace Schema

/-- Every type of a schema. -/
def allTypes (s : Schema) : List (NamedType String) := s.types ++ Introspection.types

/-- The type of a name. -/
def find? (s : Schema) (name : String) : Option (NamedType String) :=
  s.allTypes.find? (·.name = name)

/-- The type of an optional name. -/
def root? (s : Schema) (name : Option String) : Option (NamedType String) := name.bind s.find?

/-- The root types with their operations. -/
def roots (s : Schema) : List (String × String) :=
  [("query", s.query), ("mutation", s.mutation), ("subscription", s.subscription)].filterMap
    fun (operation, root) => root.map (operation, ·)

/-- Whether a name is that of an object type. -/
def isObject (s : Schema) (name : String) : Bool := (s.find? name).any (·.body.isObject)

/-- Whether a name is that of a scalar or an enum. -/
def isLeaf (s : Schema) (name : String) : Bool := (s.find? name).any (·.body.isLeaf)

/-- What keeps a schema from being printed. -/
def valueFault? (s : Schema) : Option NameFault := s.types.findSome? NamedType.valueFault?

/-- The number of types, with those that describe schemas themselves. -/
def typeCount (s : Schema) : Nat := s.allTypes.length

end Schema

end OpenCrud
