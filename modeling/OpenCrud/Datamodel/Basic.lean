import OpenCrud.Sdl.Document
import OpenCrud.Scalar

/-!
# Datamodels

A datamodel is a list of types: models, embedded types and enums. A field refers to the type it points at
by name, so types may refer to each other in any way. `TypeGraph` finds types by name.
-/

namespace OpenCrud

/-! ## Databases -/

/-- The kinds of database a datamodel can be written for. -/
inductive Database where
  | relational
  | document
  deriving DecidableEq, Repr

namespace Database

/-- The name of a kind of database. -/
def name : Database → String
  | .relational => "relational"
  | .document => "document"

/-- The kind of database of a name. -/
def ofName? (name : String) : Option Database :=
  [Database.relational, .document].find? (·.name = name)

/-- Whether types can be embedded in others. -/
def allowsEmbedded : Database → Bool
  | .relational => false
  | .document => true

end Database

/-! ## Types and fields -/

/-- A field of a datamodel type. -/
structure ModelField where
  name : String
  typeName : String
  isRequired : Bool := false
  isList : Bool := false
  isId : Bool := false
  isUnique : Bool := false
  isReadOnly : Bool := false
  defaultValue : Option Value := none
  relationName : Option Value := none
  /-- The field of the related type that points back, if exactly one does. -/
  relatedField : Option String := none
  description : Option String := none

/-- A type of a datamodel: a model, an embedded type or an enum. -/
structure ModelType where
  name : String
  fields : List ModelField := []
  isEnum : Bool := false
  isEmbedded : Bool := false
  values : List String := []
  description : Option String := none

namespace ModelType

/-- The first field of a name. -/
def field? (t : ModelType) (name : String) : Option ModelField :=
  t.fields.find? (·.name = name)

/-- The field that identifies the items of a type, if there is one. -/
def idField? (t : ModelType) : Option ModelField := t.fields.find? (·.isId)

/-- Whether a type is a model: neither an enum nor embedded. Models have root fields. -/
def isModel (t : ModelType) : Bool := !t.isEnum && !t.isEmbedded

end ModelType

/-! ## Types by name -/

/-- The types of a datamodel, one for each name, in the order in which the names first came. -/
structure TypeGraph where
  types : List ModelType

namespace TypeGraph

/-- Puts a type into a list of types: in the place of the type of its name, else at the end. -/
def put (t : ModelType) : List ModelType → List ModelType
  | [] => [t]
  | u :: us => if u.name = t.name then t :: us else u :: put t us

/-- The graph of a list of types. Of several types of one name the last counts. -/
def ofTypes (types : List ModelType) : TypeGraph :=
  ⟨types.foldl (fun placed t => put t placed) []⟩

/-- The type of a name. -/
def find? (g : TypeGraph) (name : String) : Option ModelType :=
  g.types.find? (·.name = name)

/-- The models of a graph. -/
def models (g : TypeGraph) : List ModelType := g.types.filter (·.isModel)

/-- The type that a field points at, if it points at a type of the graph. -/
def relatedType? (g : TypeGraph) (f : ModelField) : Option ModelType := g.find? f.typeName

end TypeGraph

end OpenCrud
