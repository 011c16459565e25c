import OpenCrud.Datamodel.Problem
import OpenCrud.Naming

/-!
# Checks across types

The types of a datamodel must leave each other room: no type is called like a type that is generated for
another one, and no two models claim the same root field. Every field points at a scalar or at a type of
the datamodel, and what is said of it suits what it points at.
-/

namespace OpenCrud.Datamodel

/-! ## Names of generated types -/

/-- The endings that turn a type's name into the names of the types generated for it. -/
def generatedSuffixes : List String :=
  ["WhereInput", "WhereUniqueInput", "OrderByInput", "CreateInput", "CreateOneInput",
   "CreateManyInput", "UpdateInput", "UpdateDataInput", "UpdateOneInput",
   "UpdateOneRequiredInput", "UpdateManyInput", "UpdateWithWhereUniqueNestedInput",
   "UpsertNestedInput", "UpdateManyMutationInput", "Edge", "Connection"]

/-- The beginning that turns a type's name into the name of its aggregate. -/
def aggregateStart : String := "Aggregate"

/-- The names of the types generated for a type. -/
def generatedNames (type : String) : List String :=
  generatedSuffixes.map (type ++ ·) ++ [aggregateStart ++ type]

/-- The last type that has a type of this name generated for it. -/
def generatedOwner? (types : List ModelType) (name : String) : Option String :=
  ((types.filter (!·.isEnum)).reverse.find? fun t => (generatedNames t.name).contains name).map
    (·.name)

/-- Fails at the first type that is called like a generated one. -/
def checkGeneratedNames (types : List ModelType) : Except Error Unit :=
  types.forM fun t =>
    match generatedOwner? types t.name with
    | some owner => .error { problem := .generatedName owner, place := .type t.name }
    | none => pure ()

/-! ## Names of root fields -/

/-- A root type of the schema that holds a field per model. -/
inductive Root where
  | query
  | mutation
  deriving DecidableEq, Repr

/-- The root fields that a model claims. -/
def claimedFields (model : String) : List (Root × String) :=
  let many := Naming.pluralName model
  [(.query, Naming.lowerFirst model),
   (.query, Naming.lowerFirst many),
   (.query, Naming.lowerFirst many ++ "Connection"),
   (.mutation, "create" ++ model),
   (.mutation, "update" ++ model),
   (.mutation, "updateMany" ++ Naming.upperFirst many),
   (.mutation, "upsert" ++ model),
   (.mutation, "delete" ++ model),
   (.mutation, "deleteMany" ++ Naming.upperFirst many)]

/-- A root field with the model that claims it. -/
structure Claim where
  root : Root
  field : String
  owner : String
  deriving DecidableEq, Repr

/-- The claims of the models, in order. -/
def claims (types : List ModelType) : List Claim :=
  (types.filter (·.isModel)).flatMap fun t =>
    (claimedFields t.name).map fun (root, field) => { root, field, owner := t.name }

/-- Fails at the first claim on a root field that an earlier claim gave to another model. -/
def checkClaims : (earlier : List Claim) → List Claim → Except Error Unit
  | _, [] => .ok ()
  | earlier, c :: cs => do
    match earlier.find? fun e => e.root = c.root && e.field = c.field && e.owner ≠ c.owner with
    | some e =>
      .error { problem := .rootFieldClash c.field e.owner c.owner, place := .type c.owner }
    | none => checkClaims (c :: earlier) cs

/-- Fails if two models claim the same root field. -/
def checkRootFields (types : List ModelType) : Except Error Unit := checkClaims [] (claims types)

/-! ## References -/

/-- Whether a default value is one of the values of an enum. -/
def isEnumDefault (values : List String) : Value → Bool
  | .text s => values.contains s
  | _ => false

/-- What is wrong with a field that points at a type of the datamodel. -/
def relationProblem? (related : ModelType) (f : ModelField) : Option Problem :=
  if related.isEnum then
    if f.relationName.isSome then some .relationOnScalar
    else match f.defaultValue with
      | some value =>
        if isEnumDefault related.values value then none
        else some (.defaultNotAValue value related.name)
      | none => none
  else if f.defaultValue.isSome then some .relationDefault
  else if f.isUnique then some .uniqueRelation
  else none

/-- What is wrong with what a field points at. -/
def referenceProblem? (types : List ModelType) (f : ModelField) : Option Problem :=
  if Scalar.isScalar f.typeName then none
  else match types.find? (·.name = f.typeName) with
    | none => some (.unknownType f.typeName)
    | some related => relationProblem? related f

/-- Fails at the first field that does not suit what it points at. -/
def checkReferences (types : List ModelType) : Except Error Unit :=
  types.forM fun t =>
    t.fields.forM fun f =>
      match referenceProblem? types f with
      | some problem => .error { problem, place := .field t.name f.name }
      | none => pure ()

end OpenCrud.Datamodel
