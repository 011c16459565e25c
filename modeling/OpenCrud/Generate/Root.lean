import OpenCrud.Generate.Output
import OpenCrud.Naming

/-!
# Root fields

The fields of the two root types. Every model has a block of fields, and the blocks come in the order of the
models. A field is left out when an input that it needs does not exist, such as the update of an item in a
model without unique fields.
-/

namespace OpenCrud.Generate

/-! ## Names -/

/-- The name of the query for one item of a model. -/
def oneQueryName (model : String) : String := Naming.lowerFirst model

/-- The name of the query for the items of a model. -/
def manyQueryName (model : String) : String := Naming.lowerFirst (Naming.pluralName model)

/-- The name of the query for a page of the items of a model. -/
def connectionQueryName (model : String) : String := manyQueryName model ++ "Connection"

/-- The name of a mutation of many items of a model. -/
def manyMutationName (verb model : String) : String :=
  verb ++ Naming.upperFirst (Naming.pluralName model)

/-! ## Arguments -/

/-- An argument that must be given. -/
def requiredArg (name : String) (input : Handle) : String × InputField Handle :=
  (name, { type := .nonNull (.named input) })

/-- An entry for something that may not exist. -/
def ifMade {α β : Type} (made : Option α) (entry : α → β) : List β := made.toList.map entry

section Fields

variable {m : Type → Type} [Monad m] [MonadExceptOf Error m] (g : TypeGraph) (ask : Ask m)

/-! ## Queries -/

/-- The queries of a model: many items, one item, a page of items. -/
def modelQueries (model : String) : m (FieldMap (OutputField Handle)) := do
  let object ← ask.type (.of .object model)
  let args ← manyArgs ask model
  let unique ← ask (.of .whereUnique model)
  let connection ← ask.type (.of .connection model)
  let pageArgs ← manyArgs ask model
  return .ofEntries <|
    (manyQueryName model, { type := .nonNull (.list (.named object)), args })
    :: ifMade unique (fun input =>
      (oneQueryName model, { type := .named object, args := [requiredArg "where" input] }))
    ++ [(connectionQueryName model, { type := .nonNull (.named connection), args := pageArgs })]

/-- The query for an item of any model by its identifier. -/
def nodeQuery (node : Handle) : OutputField Handle where
  type := .named node
  args :=
    [("id", { type := .nonNull (scalarType .id), description := some "The ID of an object" })]
  description := some "Fetches an object given its ID"

/-- The fields of the query type. -/
def queryFields : m (FieldMap (OutputField Handle)) := do
  let blocks ← g.models.mapM fun t => modelQueries ask t.name
  let fields := FieldMap.ofEntries blocks.flatten
  if g.models.any implementsNode then
    return fields.insert "node" (nodeQuery (← ask.type (.shared .node)))
  else return fields

/-! ## Mutations -/

/-- The inputs that the mutations of a model take, as far as they exist. -/
structure MutationInputs where
  filter : Handle
  unique : Option Handle
  create : Option Handle
  update : Option Handle
  updateMany : Option Handle

/-- The inputs of a model's mutations. -/
def mutationInputs (model : String) : m MutationInputs := do
  let filter ← ask.type (.of .whereInput model)
  let unique ← ask (.of .whereUnique model)
  let create ← ask (.of .create model)
  let update ← ask (.of .update model)
  let updateMany ← ask (.of .updateManyMutation model)
  return { filter, unique, create, update, updateMany }

/-- The mutations of a model, given the types of one item and of the answer to a change of many. -/
def mutationFields (model : String) (object batch : Handle) (inputs : MutationInputs) :
    FieldMap (OutputField Handle) :=
  let item : TypeExpr Handle := .named object
  let many : TypeExpr Handle := .nonNull (.named batch)
  let filter : String × InputField Handle := ("where", { type := .named inputs.filter })
  let uniqueUpdate := inputs.unique.bind fun unique => inputs.update.map (unique, ·)
  let upsert := uniqueUpdate.bind fun parts => inputs.create.map (parts, ·)
  [[("create" ++ model,
      { type := .nonNull item, args := ifMade inputs.create (requiredArg "data") })],
   ifMade uniqueUpdate fun (unique, update) => ("update" ++ model,
      { type := item, args := [requiredArg "data" update, requiredArg "where" unique] }),
   ifMade inputs.updateMany fun data => (manyMutationName "updateMany" model,
      { type := many, args := [requiredArg "data" data, filter] }),
   ifMade upsert fun ((unique, update), create) => ("upsert" ++ model,
      { type := .nonNull item
        args := [requiredArg "where" unique, requiredArg "create" create,
          requiredArg "update" update] }),
   ifMade inputs.unique fun unique => ("delete" ++ model,
      { type := item, args := [requiredArg "where" unique] }),
   [(manyMutationName "deleteMany" model, { type := many, args := [filter] })]].flatten

/-- The mutations of a model. -/
def modelMutations (model : String) : m (FieldMap (OutputField Handle)) := do
  let object ← ask.type (.of .object model)
  let batch ← ask.type (.shared .batchPayload)
  let inputs ← mutationInputs ask model
  return .ofEntries (mutationFields model object batch inputs)

/-- The fields of the mutation type. -/
def allMutations : m (FieldMap (OutputField Handle)) := do
  let blocks ← g.models.mapM fun t => modelMutations ask t.name
  return .ofEntries blocks.flatten

end Fields

end OpenCrud.Generate
