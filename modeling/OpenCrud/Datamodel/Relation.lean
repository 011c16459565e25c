import OpenCrud.Datamodel.Basic

/-!
# Back relations

A relation field is linked to the field of the related type that points back, when exactly one field does:
one that points at the first field's type under the same relation name and is not the first field itself.
-/

namespace OpenCrud.Datamodel

/-- Whether the field `g` of the type `related` points back along the field `f` of the type `owner`. -/
def pointsBack (owner related : ModelType) (f g : ModelField) : Bool :=
  g.typeName = owner.name
    && Value.sameOption g.relationName f.relationName
    && !(related.name = owner.name && g.name = f.name)

/-- The name of the only field that points back along a field, if there is exactly one. -/
def backRelation? (types : List ModelType) (owner : ModelType) (f : ModelField) : Option String :=
  match types.find? (·.name = f.typeName) with
  | none => none
  | some related =>
    if related.isEnum then none
    else match related.fields.filter (pointsBack owner related f) with
      | [g] => some g.name
      | _ => none

/-- Links every relation field of the types. -/
def linkRelations (types : List ModelType) : List ModelType :=
  types.map fun t =>
    { t with fields := t.fields.map fun f => { f with relatedField := backRelation? types t f } }

end OpenCrud.Datamodel
