import OpenCrud.Generate.Modifier
import OpenCrud.Schema.Basic

/-!
# Objects

The fields of the types that answers are made of: the items of the datamodel, and the pages in which lists
of them are read.
-/

namespace OpenCrud.Generate

open MonadExcept (ofExcept)

/-- A scalar of every schema as a type. -/
def scalarType (s : Scalar) : TypeExpr Handle := .named (.scalar s)

/-! ## Arguments of lists -/

/-- The arguments by which a page of a list is chosen. -/
def pageArgs : FieldMap (InputField Handle) :=
  [("skip", { type := scalarType .int }), ("after", { type := scalarType .string }),
   ("before", { type := scalarType .string }), ("first", { type := scalarType .int }),
   ("last", { type := scalarType .int })]

/-- An argument for an input that may not exist. -/
def argIfMade (name : String) (input : Option Handle) : FieldMap (InputField Handle) :=
  match input with
  | some h => [(name, { type := .named h })]
  | none => []

section Fields

variable {m : Type → Type} [Monad m] [MonadExceptOf Error m] (g : TypeGraph) (ask : Ask m)

/-- The arguments of a list of items: a filter, an order and the page. -/
def manyArgs (typeName : String) : m (FieldMap (InputField Handle)) := do
  let filter ← ask (.of .whereInput typeName)
  let order ← ask (.of .orderBy typeName)
  return argIfMade "where" filter ++ argIfMade "orderBy" order ++ pageArgs

/-! ## Items -/

/-- Whether a field identifies items across all types. -/
def isNodeId (f : ModelField) : Bool :=
  f.name = "id" && f.typeName = Scalar.id.name && f.isRequired && !f.isList

/-- Whether the items of a type can be fetched by their identifier alone. -/
def implementsNode (t : ModelType) : Bool := !t.isEmbedded && t.idField?.any isNodeId

/-- The interfaces of an object. -/
def objectInterfaces (t : ModelType) : m (List Handle) := do
  if implementsNode t then return [← ask.type (.shared .node)] else return []

/-- The field of an object for a field of the type. Only lists of items with an identity of their own have
arguments. -/
def objectField (f : ModelField) : m (String × OutputField Handle) := do
  match ← ofExcept (target g f) with
  | .scalar _ | .enum _ =>
    return (f.name, { type := ← outputType ask f, description := f.description })
  | .relation t =>
    let object ← ask.type (.of .object t.name)
    let args ← if f.isList && !t.isEmbedded then manyArgs ask t.name else pure []
    return (f.name,
      { type := withModifiers f (.named object), args, description := f.description })

/-- The fields of an object. -/
def objectFields (t : ModelType) : m (FieldMap (OutputField Handle)) := do
  return .ofEntries (← t.fields.mapM (objectField g ask))

/-! ## Pages -/

/-- The field of the interface of items that can be fetched by their identifier. -/
def nodeFields : FieldMap (OutputField Handle) :=
  [("id", { type := .nonNull (scalarType .id), description := some "The id of the object." })]

/-- The fields of the place of a page in its list. -/
def pageInfoFields : FieldMap (OutputField Handle) :=
  [("hasNextPage", { type := .nonNull (scalarType .boolean) }),
   ("hasPreviousPage", { type := .nonNull (scalarType .boolean) }),
   ("startCursor", { type := scalarType .string }),
   ("endCursor", { type := scalarType .string })]

/-- The field of the answer to a change of many items. -/
def batchPayloadFields : m (FieldMap (OutputField Handle)) := do
  let long ← ask.type (.of .scalar Scalar.long.name)
  return [("count",
    { type := .nonNull (.named long)
      description := some "The number of nodes that have been affected by the Batch operation." })]

/-- The fields of an item with its place in a list. -/
def edgeFields (typeName : String) : m (FieldMap (OutputField Handle)) := do
  let object ← ask.type (.of .object typeName)
  return [
    ("node",
      { type := .nonNull (.named object)
        description := some "The item at the end of the edge." }),
    ("cursor",
      { type := .nonNull (scalarType .string)
        description := some "A cursor for use in pagination." })]

/-- The field of what is counted over a list. -/
def aggregateFields : FieldMap (OutputField Handle) :=
  [("count", { type := .nonNull (scalarType .int) })]

/-- The fields of a page of a list. -/
def connectionFields (typeName : String) : m (FieldMap (OutputField Handle)) := do
  let pageInfo ← ask.type (.shared .pageInfo)
  let edge ← ask.type (.of .edge typeName)
  let aggregate ← ask.type (.of .aggregate typeName)
  return [
    ("pageInfo",
      { type := .nonNull (.named pageInfo)
        description := some "Information to aid in pagination." }),
    ("edges",
      { type := .nonNull (.list (.named edge))
        description := some "A list of edges." }),
    ("aggregate", { type := .nonNull (.named aggregate) })]

end Fields

end OpenCrud.Generate
