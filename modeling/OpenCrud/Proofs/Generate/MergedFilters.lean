import OpenCrud.Generate.Build
import OpenCrud.Proofs.OrderedMap

/-!
# Filters merged field by field

The fields of a filter input are made by one merge of the filters of all fields and the operators behind them.
They can as well be merged field by field, each block into what there is already: by the laws of merging both
come to the same, whatever the fields are called and however requests are answered. Main result:
`mergedFilters`.
-/

namespace OpenCrud.Generate

section ByField

variable {m : Type → Type} [Monad m] [MonadExceptOf Error m]

/-- The filters of some fields, each block merged into what there is already. -/
def filtersByField (g : TypeGraph) (ask : Ask m) (fields : List ModelField) : m (FieldMap (InputField Handle)) :=
  fields.foldlM (fun filters f => do return FieldMap.merge [some filters, ← fieldFilters g ask f]) []

/-- The fields of the input that selects items of a type, merged field by field and with the operators last. -/
def whereFieldsByField (g : TypeGraph) (ask : Ask m) (t : ModelType) : m (FieldMap (InputField Handle)) := do
  let filters ← filtersByField g ask t.fields
  let itself ← ask.type (.of .whereInput t.name)
  return FieldMap.merge [some filters, some (suffixed "" logicalOperators (listOf (.named itself)))]

variable [LawfulMonad m]

theorem filtersByField_eq (g : TypeGraph) (ask : Ask m) (fields : List ModelField) :
    filtersByField g ask fields = do return FieldMap.merge (← fields.mapM (fieldFilters g ask)) :=
  FieldMap.foldlM_merge (fieldFilters g ask) fields []

/-! ## Main result -/

/-- Field maps are a monoid under merging, so the filters of a type can be merged field by field: they come to
one merge of the filters of all fields and the operators behind them. -/
theorem mergedFilters :
    (∀ α : Type, FieldMap.MergeLaws α) ∧
    ∀ (g : TypeGraph) (ask : Ask m) (t : ModelType),
      (whereFieldsByField g ask t = do
        let blocks ← t.fields.mapM (fieldFilters g ask)
        let itself ← ask.type (.of .whereInput t.name)
        return FieldMap.merge (blocks ++ [some (suffixed "" logicalOperators (listOf (.named itself)))])) ∧
      whereFieldsByField g ask t = whereFields g ask t := by
  have hfields : ∀ (g : TypeGraph) (ask : Ask m) (t : ModelType),
      whereFieldsByField g ask t = whereFields g ask t := by
    intro g ask t
    simp only [whereFieldsByField, whereFields, filtersByField_eq, bind_assoc, pure_bind,
      FieldMap.merge_merge_cons]
  exact ⟨fun _ => FieldMap.mergeLaws, fun g ask t => ⟨hfields g ask t, hfields g ask t⟩⟩

end ByField

/-- A type with a field that is called like a filter of the one before it, and one that is called like an
operator. -/
def clashing : ModelType where
  name := "Flag"
  fields :=
    [{ name := "set", typeName := "Boolean" }, { name := "set_not", typeName := "Int" },
     { name := "OR", typeName := "Boolean" }]

/-- The graph of that type alone. -/
def clashingGraph : TypeGraph := .ofTypes [clashing]

/-- Keys that clash keep their first places, a filter takes the later type and an operator takes its own. -/
theorem mergedFilters_clashing :
    LawfulMonad (Except Error) ∧
    (whereFieldsByField clashingGraph (fresh clashingGraph) clashing = do
      let blocks ← clashing.fields.mapM (fieldFilters clashingGraph (fresh clashingGraph))
      let itself ← Ask.type (fresh clashingGraph) (.of .whereInput clashing.name)
      return FieldMap.merge (blocks ++ [some (suffixed "" logicalOperators (listOf (.named itself)))])) ∧
    (whereFieldsByField clashingGraph (fresh clashingGraph) clashing).map FieldMap.keys =
      .ok ["set", "set_not", "set_not_not", "set_not_in", "set_not_not_in", "set_not_lt", "set_not_lte",
        "set_not_gt", "set_not_gte", "OR", "OR_not", "AND", "NOT"] ∧
    (whereFieldsByField clashingGraph (fresh clashingGraph) clashing).map (FieldMap.find? "set_not") =
      .ok (some { type := .named (.scalar .int) }) ∧
    (whereFieldsByField clashingGraph (fresh clashingGraph) clashing).map (FieldMap.find? "OR") =
      .ok (some { type := listOf (.named (.made (.of .whereInput "Flag"))) }) := by
  refine ⟨inferInstance, (mergedFilters.2 _ _ _).1, ?_, ?_, ?_⟩
  · decide +kernel
  · decide +kernel
  · decide +kernel

end OpenCrud.Generate
