import OpenCrud.Generate.Run
import OpenCrud.Schema.TypeExpr

/-!
# Targets and modifiers

A field points at a scalar, an enum or a type with fields of its own: its target. The modifiers around the
target follow from the field. The items of a list are never null; a list of scalars is null only where the
field is optional, and a list of related items has no modifier of its own.
-/

namespace OpenCrud.Generate

open MonadExcept (ofExcept)

/-! ## Targets -/

/-- What a field of the datamodel points at. -/
inductive Target where
  | scalar (s : Scalar)
  | enum (t : ModelType)
  | relation (t : ModelType)

/-- Whether values of a target have no parts: it is a scalar or an enum. -/
def Target.isLeaf : Target → Bool
  | .scalar _ | .enum _ => true
  | .relation _ => false

/-- The target of a field. A type of the datamodel comes before a scalar of the same name. -/
def target (g : TypeGraph) (f : ModelField) : Except Error Target :=
  match g.relatedType? f with
  | some t => .ok (if t.isEnum then .enum t else .relation t)
  | none =>
    match Scalar.ofName? f.typeName with
    | some s => .ok (.scalar s)
    | none => .error (.notAScalar f.typeName)

/-- Whether a field points at a scalar or an enum. -/
def isLeafField (g : TypeGraph) (f : ModelField) : Except Error Bool :=
  (target g f).map Target.isLeaf

/-- The fields that point at a scalar or an enum. -/
def leafFields (g : TypeGraph) : List ModelField → Except Error (List ModelField)
  | [] => .ok []
  | f :: fs => do
    let isLeaf ← isLeafField g f
    let rest ← leafFields g fs
    return if isLeaf then f :: rest else rest

/-- Refuses a field that points at neither a scalar nor an enum. -/
def assertLeaf (g : TypeGraph) (f : ModelField) : Except Error Unit := do
  if !(← isLeafField g f) then throw (.notScalarField f.name f.typeName)

/-- Refuses a field that points at a scalar or an enum. -/
def assertRelation (g : TypeGraph) (f : ModelField) : Except Error Unit := do
  if ← isLeafField g f then throw (.notRelationField f.name f.typeName)

/-! ## Modifiers -/

section Modifiers

variable {ρ : Type}

/-- A list of items that are not null. -/
def listOf (t : TypeExpr ρ) : TypeExpr ρ := .list (.nonNull t)

/-- A type, not null where that is required. -/
def requiredIf (required : Bool) (t : TypeExpr ρ) : TypeExpr ρ :=
  if required then .nonNull t else t

/-- The target of a field with the field's modifiers; a list is never required. -/
def withModifiers (f : ModelField) (t : TypeExpr ρ) : TypeExpr ρ :=
  if f.isList then listOf t else requiredIf f.isRequired t

end Modifiers

/-! ## Types of scalar and enum fields -/

section LeafTypes

variable {m : Type → Type} [Monad m] (ask : Ask m)

/-- The scalar or the enum that a field points at. -/
def leafType (f : ModelField) : m (TypeExpr Handle) := do
  return .named (← ask.type (.of .scalar f.typeName))

/-- The type of a scalar field that may be left out. -/
def optionalType (f : ModelField) : m (TypeExpr Handle) := do
  let t ← leafType ask f
  return if f.isList then listOf t else t

/-- The type of a scalar field that must not be left out. -/
def requiredType (f : ModelField) : m (TypeExpr Handle) := do
  return .nonNull (← optionalType ask f)

/-- The type of a scalar field in an answer. -/
def outputType (f : ModelField) : m (TypeExpr Handle) := do
  return requiredIf f.isRequired (← optionalType ask f)

/-- The type of a scalar field in the input that creates an item. A default value makes it optional. -/
def inputType (f : ModelField) : m (TypeExpr Handle) := do
  return requiredIf (f.isRequired && f.defaultValue.isNone) (← optionalType ask f)

end LeafTypes

end OpenCrud.Generate
