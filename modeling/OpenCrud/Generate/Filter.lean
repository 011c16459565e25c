import OpenCrud.Generate.Modifier
import OpenCrud.Schema.Basic

/-!
# Filters

The input by which items of a type are selected. Every scalar or enum field gives a family of filters that
depends on its type, a relation filters by the input of the related type, and the logical operators take
lists of the input itself. The name of a filter is the field's name with a suffix.
-/

namespace OpenCrud.Generate

open MonadExcept (ofExcept)

/-! ## Families -/

/-- The families of filters on scalars and enums. -/
inductive FilterFamily where
  /-- Equal or not. -/
  | base
  /-- One of a list of values or not. -/
  | inclusion
  /-- Before or after a value. -/
  | ordering
  /-- Has a text as a part, at its start or at its end, or not. -/
  | text
  deriving DecidableEq, Repr

namespace FilterFamily

/-- The suffixes of a family. -/
def suffixes : FilterFamily → List String
  | .base => ["", "_not"]
  | .inclusion => ["_in", "_not_in"]
  | .ordering => ["_lt", "_lte", "_gt", "_gte"]
  | .text =>
    ["_contains", "_not_contains", "_starts_with", "_not_starts_with", "_ends_with",
     "_not_ends_with"]

/-- The families of a scalar. -/
def ofScalar : Scalar → List FilterFamily
  | .string | .id | .uuid => [.base, .inclusion, .ordering, .text]
  | .int | .float | .long | .dateTime => [.base, .inclusion, .ordering]
  | .boolean => [.base]
  | .json => []

/-- The families of an enum. -/
def ofEnum : List FilterFamily := [.base, .inclusion]

/-- The type of a family's filters on values of a type. -/
def type {ρ : Type} (family : FilterFamily) (t : TypeExpr ρ) : TypeExpr ρ :=
  match family with
  | .inclusion => listOf t
  | .base | .ordering | .text => t

end FilterFamily

/-- The suffixes of the filters on a relation to many items. -/
def manyRelationSuffixes : List String := ["_every", "_some", "_none"]

/-- The names of the filters that combine filters. -/
def logicalOperators : List String := ["AND", "OR", "NOT"]

/-- Filters of one type, a filter for each suffix of a name. -/
def suffixed (name : String) (suffixes : List String) (t : TypeExpr Handle) :
    FieldMap (InputField Handle) :=
  suffixes.map fun suffix => (name ++ suffix, { type := t })

/-! ## Filters of a field -/

section Fields

variable {m : Type → Type} [Monad m] [MonadExceptOf Error m] (g : TypeGraph) (ask : Ask m)

/-- The filters of one family on a field. -/
def familyFilters (family : FilterFamily) (f : ModelField) : m (FieldMap (InputField Handle)) := do
  return suffixed f.name family.suffixes (family.type (← leafType ask f))

/-- The filters of several families on a field. -/
def familiesFilters (families : List FilterFamily) (f : ModelField) :
    m (FieldMap (InputField Handle)) := do
  return .merge ((← families.mapM fun family => familyFilters ask family f).map some)

/-- The filters on a field that points at a scalar or an enum. A list has none. -/
def scalarFilters (f : ModelField) : m (Option (FieldMap (InputField Handle))) := do
  match ← ofExcept (target g f) with
  | .relation _ => throw (.notScalarField f.name f.typeName)
  | .scalar s =>
    if f.isList then return none
    else return some (← familiesFilters ask (FilterFamily.ofScalar s) f)
  | .enum _ =>
    if f.isList then return none
    else return some (← familiesFilters ask FilterFamily.ofEnum f)

/-- Filters on a field by the input that selects items of the related type. -/
def relatedFilters (suffixes : List String) (f : ModelField) :
    m (FieldMap (InputField Handle)) := do
  match g.relatedType? f with
  | none => throw (.unknownType f.typeName)
  | some t => return suffixed f.name suffixes (.named (← ask.type (.of .whereInput t.name)))

/-- The filter on a field that points at one item. -/
def oneRelationFilters (f : ModelField) : m (FieldMap (InputField Handle)) :=
  relatedFilters g ask [""] f

/-- The filters on a field that points at many items. -/
def manyRelationFilters (f : ModelField) : m (FieldMap (InputField Handle)) :=
  relatedFilters g ask manyRelationSuffixes f

/-- The filters on a field that points at a type with fields. -/
def relationFilters (f : ModelField) : m (FieldMap (InputField Handle)) := do
  ofExcept (assertRelation g f)
  if f.isList then manyRelationFilters g ask f else oneRelationFilters g ask f

/-- The filters on a field. -/
def fieldFilters (f : ModelField) : m (Option (FieldMap (InputField Handle))) := do
  if ← ofExcept (isLeafField g f) then scalarFilters g ask f
  else return some (← relationFilters g ask f)

end Fields

/-! ## The filter input -/

/-- The fields of the input that selects items of a type: the filters of its fields, then the logical
operators. -/
def whereFields {m : Type → Type} [Monad m] [MonadExceptOf Error m] (g : TypeGraph) (ask : Ask m)
    (t : ModelType) : m (FieldMap (InputField Handle)) := do
  let blocks ← t.fields.mapM (fieldFilters g ask)
  let itself ← ask.type (.of .whereInput t.name)
  return .merge (blocks ++ [some (suffixed "" logicalOperators (listOf (.named itself)))])

end OpenCrud.Generate
