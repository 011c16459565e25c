import OpenCrud.Datamodel.Problem

/-!
# From definitions to types

Each object definition declares a model or an embedded type, each enum definition an enum; no other
definition belongs in a datamodel. Here a definition is checked on its own. What the types of a datamodel
must fulfil together is in `OpenCrud.Datamodel.Check`.
-/

namespace OpenCrud.Datamodel

open OpenCrud.Sdl

/-- Fails with a problem of a field. -/
def failField {α : Type} (type field : String) (problem : Problem) : Except Error α :=
  .error { problem, place := .field type field }

/-- Fails with a problem of a type. -/
def failType {α : Type} (type : String) (problem : Problem) : Except Error α :=
  .error { problem, place := .type type }

/-! ## What the database decides -/

/-- Whether a field identifies the items of its type. A relational database takes the name `id` for it;
any database takes the directive. -/
def isIdField (database : Database) (d : FieldDef) : Bool :=
  (database = .relational && d.name.text = "id") || hasDirective d.directives "id"

/-- The fields that a relational database manages by their names. -/
def managedFields : List String := ["id", "createdAt", "updatedAt"]

/-- Whether the database sets a field. -/
def isReadOnlyField (database : Database) (d : FieldDef) : Bool :=
  isIdField database d
    || (database = .relational && managedFields.contains d.name.text)
    || hasDirective d.directives "createdAt"
    || hasDirective d.directives "updatedAt"

/-! ## Fields -/

/-- What a field's type says: the type it points at, and whether it is required and a list. -/
structure FieldShape where
  typeName : String
  isRequired : Bool
  isList : Bool
  deriving DecidableEq, Repr

/-- The shape of a type expression: a type or a list of a type. Whether the items of a list are non-null
makes no difference, and lists of lists have no shape. -/
def FieldShape.ofTypeExpr? : TypeExpr Name → Option FieldShape
  | .named n => some ⟨n.text, false, false⟩
  | .list (.named n) => some ⟨n.text, false, true⟩
  | .list (.nonNull (.named n)) => some ⟨n.text, false, true⟩
  | .nonNull (.named n) => some ⟨n.text, true, false⟩
  | .nonNull (.list (.named n)) => some ⟨n.text, true, true⟩
  | .nonNull (.list (.nonNull (.named n))) => some ⟨n.text, true, true⟩
  | _ => none

/-- The default value of a field. -/
def defaultValue? (d : FieldDef) : Option Value :=
  (findDirective? d.directives "default").bind (·.argument? "value")

/-- The field that a definition declares. -/
def declareField (database : Database) (type : String) (d : FieldDef) : Except Error ModelField := do
  let name := d.name.text
  let fail {α : Type} (problem : Problem) : Except Error α := failField type name problem
  let some shape := FieldShape.ofTypeExpr? d.type | fail .nestedList
  let isId := isIdField database d
  let isUnique := hasDirective d.directives "unique"
  if isUnique && shape.isList then fail .uniqueList
  let defaultValue := defaultValue? d
  if defaultValue.isSome && shape.isList then fail .listDefault
  let relation := findDirective? d.directives "relation"
  if relation.isSome && Scalar.isScalar shape.typeName then fail .relationOnScalar
  pure {
    name
    typeName := shape.typeName
    isRequired := shape.isRequired
    isList := shape.isList
    isId
    isUnique := isId || isUnique
    isReadOnly := isReadOnlyField database d
    defaultValue
    relationName := relation.bind (·.argument? "name")
    description := d.description }

/-- The fields of a type; `seen` holds the names of the fields before. -/
def declareFields (database : Database) (type : String) :
    (seen : List String) → List FieldDef → Except Error (List ModelField)
  | _, [] => .ok []
  | seen, d :: ds => do
    let field ← declareField database type d
    if seen.contains field.name then failField type field.name .repeatedField
    let later ← declareFields database type (field.name :: seen) ds
    pure (field :: later)

/-! ## Types -/

/-- The enum that a definition declares. -/
def declareEnum (d : EnumDef) : Except Error ModelType := do
  if d.values.isEmpty then failType d.name.text .noValues
  pure {
    name := d.name.text
    isEnum := true
    values := d.values.map (·.name.text)
    description := d.description }

/-- The model or embedded type that a definition declares. -/
def declareObject (database : Database) (d : ObjectDef) : Except Error ModelType := do
  let name := d.name.text
  let isEmbedded := hasDirective d.directives "embedded"
  if isEmbedded && !database.allowsEmbedded then failType name (.embeddedNotSupported database)
  let fields ← declareFields database name [] d.fields
  if fields.isEmpty then failType name .noFields
  if 1 < (fields.filter (·.isId)).length then failType name .severalIds
  pure { name, fields, isEmbedded, description := d.description }

/-- The type that a definition declares. -/
def declareType (database : Database) : Definition → Except Error ModelType
  | .enum d => declareEnum d
  | .object d => declareObject database d
  | d => .error { problem := .unsupportedDefinition d.kind }

/-- The names of the types that every schema generated from a datamodel may hold. -/
def reservedTypeNames : List String :=
  ["Query", "Mutation", "Subscription", "Node", "PageInfo", "BatchPayload"]

/-- Fails if a type may not have its name; `seen` holds the names of the types before. -/
def checkTypeName (seen : List String) (name : String) : Except Error Unit := do
  if seen.contains name then failType name .repeatedType
  if Scalar.isScalar name then failType name .scalarName
  if reservedTypeNames.contains name then failType name .reservedName

/-- The types of a document; `seen` holds the names of the types before. -/
def declareTypes (database : Database) :
    (seen : List String) → Document → Except Error (List ModelType)
  | _, [] => .ok []
  | seen, d :: ds => do
    let type ← declareType database d
    checkTypeName seen type.name
    let later ← declareTypes database (type.name :: seen) ds
    pure (type :: later)

end OpenCrud.Datamodel
