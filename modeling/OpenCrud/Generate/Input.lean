import OpenCrud.Generate.Filter
import OpenCrud.Generate.Nested

/-!
# Inputs

The fields of the inputs of queries and mutations. An input that would have no field, or would lack a part that it
cannot do without, is not made, and whoever would use it leaves it out.
-/

namespace OpenCrud.Generate

open MonadExcept (ofExcept)

/-! ## Choosing fields -/

/-- The fields that the inputs of mutations can set. -/
def writableFields (t : ModelType) : List ModelField := t.fields.filter (!·.isReadOnly)

/-- The fields that can be set on many items at once. -/
def writableLeafFields (g : TypeGraph) (t : ModelType) : Except Error (List ModelField) :=
  leafFields g (writableFields t)

/-- The fields whose value selects one item. -/
def uniqueFields (g : TypeGraph) (t : ModelType) : Except Error (List ModelField) :=
  leafFields g (t.fields.filter (·.isUnique))

/-- The values by which lists of a type can be ordered: up and down by every scalar or enum field that is
no list. -/
def orderValues (g : TypeGraph) (t : ModelType) : Except Error (List String) := do
  let fields ← leafFields g (t.fields.filter (!·.isList))
  return fields.flatMap fun f => [f.name ++ "_ASC", f.name ++ "_DESC"]

section Inputs

variable {m : Type → Type} [Monad m] [MonadExceptOf Error m] (g : TypeGraph) (ask : Ask m)

/-! ## Fields of the writable fields -/

/-- The field of a create input for a field of the type, unless nothing can be given for it. -/
def createField (f : ModelField) : m (Option (String × InputField Handle)) := do
  match ← ofExcept (target g f) with
  | .scalar _ | .enum _ => return some (f.name, { type := ← inputType ask f })
  | .relation t =>
    if f.isList then
      let input ← ask (.of .createMany t.name)
      return input.map fun h => (f.name, { type := .named h })
    else
      let input ← ask (.of .createOne t.name)
      return input.map fun h => (f.name, { type := requiredIf f.isRequired (.named h) })

/-- The field of an update input for a field of the type, unless nothing can be changed about it. -/
def updateField (f : ModelField) : m (Option (String × InputField Handle)) := do
  match ← ofExcept (target g f) with
  | .scalar _ | .enum _ => return some (f.name, { type := ← optionalType ask f })
  | .relation t =>
    let input ←
      if f.isList then ask (.of .updateMany t.name)
      else ask ⟨.updateOne, t.name, .ofRequired f.isRequired⟩
    return input.map fun h => (f.name, { type := .named h })

/-- The field of an input in which every field may be left out. -/
def optionalField (f : ModelField) : m (String × InputField Handle) := do
  return (f.name, { type := ← optionalType ask f })

/-! ## Fields of the inputs -/

/-- The fields of a create input. -/
def createFields (t : ModelType) : m (FieldMap (InputField Handle)) := do
  return .ofEntries ((← (writableFields t).mapM (createField g ask)).filterMap id)

/-- The fields of an update input. -/
def updateFields (t : ModelType) : m (FieldMap (InputField Handle)) := do
  return .ofEntries ((← (writableFields t).mapM (updateField g ask)).filterMap id)

/-- The fields of the input that changes many items at once. -/
def updateManyMutationFields (t : ModelType) : m (FieldMap (InputField Handle)) := do
  return .ofEntries (← (← ofExcept (writableLeafFields g t)).mapM (optionalField ask))

/-- The fields of the input that selects one item. -/
def whereUniqueFields (t : ModelType) : m (FieldMap (InputField Handle)) := do
  return .ofEntries (← (← ofExcept (uniqueFields g t)).mapM (optionalField ask))

/-- A field for each operation, with a modifier around the type. -/
def operationFields (modify : TypeExpr Handle → TypeExpr Handle) (operations : Operations) :
    FieldMap (InputField Handle) :=
  operations.map fun operation => (operation.1, { type := modify (.named operation.2) })

/-- The fields of an input; none for a kind of type that is no input. -/
def inputFields (r : Request) (t : ModelType) : m (FieldMap (InputField Handle)) := do
  match r.kind with
  | .whereInput => whereFields g ask t
  | .whereUnique => whereUniqueFields g ask t
  | .create => createFields g ask t
  | .update => updateFields g ask t
  | .updateManyMutation => updateManyMutationFields g ask t
  | .createOne => return operationFields id (← createOperations ask t)
  | .createMany => return operationFields listOf (← createOperations ask t)
  | .updateOne => return operationFields id (← updateOneOperations ask t r.args.required)
  | .updateMany => return operationFields listOf (← updateManyOperations ask t)
  | .updateWithWhereUnique => return operationFields .nonNull (needed (← updateSelectedParts ask t))
  | .upsertNested => return operationFields .nonNull (needed (← upsertParts ask t))
  | _ => return []

/-! ## Inputs that are not made -/

/-- Whether an input would have no field or lack a part that it cannot do without. -/
def wouldBeEmpty (r : Request) (t : ModelType) : m Bool := do
  match r.kind with
  | .whereUnique => return (← ofExcept (uniqueFields g t)).isEmpty
  | .create | .update => return (writableFields t).isEmpty
  | .updateManyMutation => return (← ofExcept (writableLeafFields g t)).isEmpty
  | .createOne | .createMany => return (← createOperations ask t).isEmpty
  | .updateOne => return (← updateOneOperations ask t r.args.required).isEmpty
  | .updateMany => return (← updateManyOperations ask t).isEmpty
  | .updateWithWhereUnique => return (← updateSelectedParts ask t).any (·.2.isNone)
  | .upsertNested => return (← upsertParts ask t).any (·.2.isNone)
  | _ => return false

end Inputs

end OpenCrud.Generate
