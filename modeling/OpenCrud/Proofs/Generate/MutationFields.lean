import OpenCrud.Proofs.Generate.QueryFields

/-!
# The fields of the mutation type

Every model is promised up to six mutations: an item is created, updated, upserted and deleted, and many items
are updated and deleted. A mutation is left out when a model has no field for what it takes. Main result: the
mutations of the models, in order, are the fields of the mutation type, wherever there is a mutation type
(`mutationFields_iff`).

A mutation takes what the other mutations take as well, so presence is a matter of two inputs: what can be
written, and what selects one item.
-/

namespace OpenCrud.Generate

open Datamodel Naming

/-! ## What is promised -/

/-- Whether a scalar or enum field of a type can be set. -/
def hasWritableLeaf (g : TypeGraph) (t : ModelType) : Bool :=
  t.fields.any fun f => !f.isReadOnly && isLeafOf g f

/-- The input of a kind as an argument that must be given. -/
def inputOf (t : ModelType) (name : String) (k : Kind) : String × InputField Handle :=
  (name, { type := .nonNull (.named (.made (.of k t.name))) })

/-- The filter of the mutations of many items. -/
def filterOf (t : ModelType) : String × InputField Handle :=
  ("where", { type := .named (.made (.of .whereInput t.name)) })

/-- The mutations that a model is promised. -/
def promisedMutations (g : TypeGraph) (t : ModelType) : FieldMap (OutputField Handle) :=
  let item : TypeExpr Handle := .named (.made (.of .object t.name))
  let many : TypeExpr Handle := .nonNull (.named (.made (.shared .batchPayload)))
  [("create" ++ t.name,
    { type := .nonNull item, args := if isWritable t then [inputOf t "data" .create] else [] })] ++
  (if isWritable t && hasUniqueLeaf g t then
    [("update" ++ t.name,
      { type := item, args := [inputOf t "data" .update, inputOf t "where" .whereUnique] })]
  else []) ++
  (if hasWritableLeaf g t then
    [("updateMany" ++ upperFirst (pluralName t.name),
      { type := many, args := [inputOf t "data" .updateManyMutation, filterOf t] })]
  else []) ++
  (if isWritable t && hasUniqueLeaf g t then
    [("upsert" ++ t.name,
      { type := .nonNull item
        args := [inputOf t "where" .whereUnique, inputOf t "create" .create, inputOf t "update" .update] })]
  else []) ++
  (if hasUniqueLeaf g t then
    [("delete" ++ t.name, { type := item, args := [inputOf t "where" .whereUnique] })]
  else []) ++
  [("deleteMany" ++ upperFirst (pluralName t.name), { type := many, args := [filterOf t] })]

/-! ## Names -/

section Names

variable {g : TypeGraph} {t : ModelType}

theorem keys_promisedMutations_sublist :
    List.Sublist ((promisedMutations g t).map Prod.fst) (mutationNames t.name) := by
  have hif : ∀ (b : Bool) (field : String × OutputField Handle),
      List.Sublist ((if b then [field] else []).map Prod.fst) [field.1] := by
    intro b field
    cases b with
    | true => exact List.Sublist.refl _
    | false => exact List.nil_sublist _
  have hnames : mutationNames t.name = ["create" ++ t.name] ++ ["update" ++ t.name] ++
      [manyMutationName "updateMany" t.name] ++ ["upsert" ++ t.name] ++ ["delete" ++ t.name] ++
      [manyMutationName "deleteMany" t.name] := rfl
  rw [hnames]
  simp only [promisedMutations, List.map_append]
  refine List.Sublist.append ?_ (List.Sublist.refl _)
  exact ((((List.Sublist.refl _).append (hif _ _)).append (hif _ _)).append (hif _ _)).append (hif _ _)

theorem claimed_of_mem_keys_mutations (t : ModelType) (key : String)
    (hkey : key ∈ (promisedMutations g t).map Prod.fst) : (.mutation, key) ∈ claimedFields t.name := by
  have hname := keys_promisedMutations_sublist.subset hkey
  simp only [mutationNames, manyMutationName, List.mem_cons, List.not_mem_nil, or_false] at hname
  simpa [claimedFields] using hname

end Names

section Fields

variable {g : TypeGraph} (h : WellFormed g.types)

include h

/-- No mutation of a model takes the place of another one. -/
theorem nodup_keys_mutations : ((g.models.flatMap (promisedMutations g)).map Prod.fst).Nodup := by
  refine nodup_keys_blocks h (fun t ht => ?_) claimed_of_mem_keys_mutations
  exact (nodup_mutationNames (h.type t ht).isName_name).sublist keys_promisedMutations_sublist

/-! ## The fields of the generator -/

theorem mutationInputs_fresh {t : ModelType} (ht : t ∈ g.types) :
    mutationInputs (fresh g) t.name = .ok {
      filter := .made (.of .whereInput t.name)
      unique := madeIf (hasUniqueLeaf g t) (.of .whereUnique t.name)
      create := madeIf (isWritable t) (.of .create t.name)
      update := madeIf (isWritable t) (.of .update t.name)
      updateMany := madeIf (hasWritableLeaf g t) (.of .updateManyMutation t.name) } := by
  have hinput : ∀ k : Kind, k.isInput = true →
      fresh g (.of k t.name) = .ok (madeIf (offersInput g t false k) (.of k t.name)) :=
    fun k hk => fresh_input h ht (r := .of k t.name) hk rfl
  rw [mutationInputs, Ask.type, fresh_whereInput h ht, hinput .whereUnique rfl, hinput .create rfl,
    hinput .update rfl, hinput .updateManyMutation rfl, hasUniqueLeaf_eq h ht]
  rfl

theorem modelMutations_fresh {t : ModelType} (ht : t ∈ g.types) (hfree : t.name ∉ introspectionNames) :
    modelMutations (fresh g) t.name = .ok (promisedMutations g t) := by
  have hbatch : Ask.type (fresh g) (.shared .batchPayload) = .ok (.made (.shared .batchPayload)) := by
    rw [Ask.type, fresh_shared h rfl]
    rfl
  have hentries : modelMutations (fresh g) t.name = .ok (.ofEntries (promisedMutations g t)) := by
    rw [modelMutations, type_object_fresh h ht, if_neg hfree, hbatch, mutationInputs_fresh h ht,
      promisedMutations]
    cases isWritable t <;> cases hasUniqueLeaf g t <;> cases hasWritableLeaf g t <;> rfl
  have hnodup := (nodup_mutationNames (h.type t ht).isName_name).sublist
    (keys_promisedMutations_sublist (g := g))
  rw [hentries, FieldMap.ofEntries_of_nodup hnodup]

theorem allMutations_fresh (hfree : ∀ t ∈ g.models, t.name ∉ introspectionNames) :
    allMutations g (fresh g) = .ok (g.models.flatMap (promisedMutations g)) := by
  have hblocks : (g.models.mapM fun t => modelMutations (fresh g) t.name) =
      .ok (g.models.map (promisedMutations g)) :=
    mapM_eq_ok fun t ht => modelMutations_fresh h (List.mem_filter.mp ht).1 (hfree t ht)
  rw [allMutations, hblocks, ok_bind, ← List.flatMap_def,
    FieldMap.ofEntries_of_nodup (nodup_keys_mutations h)]
  rfl

/-- There are mutations exactly where the objects of the models can take their names. -/
theorem allMutations_eq_ok_iff {fields : FieldMap (OutputField Handle)} :
    allMutations g (fresh g) = .ok fields ↔
      (∀ t ∈ g.models, t.name ∉ introspectionNames) ∧ fields = g.models.flatMap (promisedMutations g) := by
  constructor
  · intro hfields
    have hfree : ∀ t ∈ g.models, t.name ∉ introspectionNames := by
      intro t ht htaken
      obtain ⟨blocks, hblocks, _⟩ := bind_eq_ok_iff.mp hfields
      obtain ⟨block, hblock⟩ := exists_of_mapM_eq_ok hblocks ht
      obtain ⟨object, hobject, _⟩ := bind_eq_ok_iff.mp hblock
      rw [type_object_fresh h (List.mem_filter.mp ht).1, if_pos htaken] at hobject
      cases hobject
    rw [allMutations_fresh h hfree] at hfields
    exact ⟨hfree, (Except.ok.inj hfields).symm⟩
  · rintro ⟨hfree, rfl⟩
    exact allMutations_fresh h hfree

theorem define_mutation_eq_ok_iff {d : NamedType Handle} :
    define g (fresh g) (.made (.shared .mutation)) = .ok d ↔
      (∀ t ∈ g.models, t.name ∉ introspectionNames) ∧
        d = { name := "Mutation", body := .object [] (g.models.flatMap (promisedMutations g)) } := by
  rw [define_plain_eq_ok_iff (r := .shared .mutation) (yields_allMutations h) rfl]
  simp only [allMutations_eq_ok_iff h]
  constructor
  · rintro ⟨_, ⟨hfree, rfl⟩, hd⟩
    exact ⟨hfree, hd⟩
  · rintro ⟨hfree, hd⟩
    exact ⟨_, ⟨hfree, rfl⟩, hd⟩

end Fields

/-! ## Main result -/

/--
The mutations of models never take each other's places, and at any time of a run the mutation type is the one
that is promised: the mutations of the models in the order of the datamodel.

A model that is called like a type by which schemas describe themselves has no object, so there is no mutation
type.
-/
theorem mutationFields_iff {database : Database} {source : List Char} {types : List ModelType}
    (h : parse database source = .ok types) {c : Cache} (hc : c.Reached (.ofTypes types)) :
    (((types.filter (·.isModel)).flatMap (promisedMutations (.ofTypes types))).map Prod.fst).Nodup ∧
    ∀ d, ((define (.ofTypes types) (answer (.ofTypes types)) (.made (.shared .mutation))).run c).1 =
        .ok d ↔
      (∀ t ∈ types, t.isModel = true → t.name ∉ introspectionNames) ∧
        d = {
          name := "Mutation"
          body := .object [] ((types.filter (·.isModel)).flatMap (promisedMutations (.ofTypes types))) } := by
  have hwf := (wellFormed_of_parse h).ofTypes
  have hmodels := TypeGraph.models_ofTypes (wellFormed_of_parse h).nodup_names
  have hnodup := nodup_keys_mutations hwf
  rw [hmodels] at hnodup
  refine ⟨hnodup, fun d => ?_⟩
  rw [run_define hc, define_mutation_eq_ok_iff hwf, hmodels]
  simp only [List.mem_filter, and_imp]

/-- A model with every mutation, and a model without what selects one item. -/
theorem mutationFields_user_post : ∃ types,
    parse .relational "type User { id: ID! name: String } type Post { title: String }".toList = .ok types ∧
    Cache.Reached (.ofTypes types) {} ∧
    (((types.filter (·.isModel)).flatMap (promisedMutations (.ofTypes types))).map Prod.fst).Nodup ∧
    ∀ d, ((define (.ofTypes types) (answer (.ofTypes types)) (.made (.shared .mutation))).run {}).1 =
        .ok d ↔
      (∀ t ∈ types, t.isModel = true → t.name ∉ introspectionNames) ∧
        d = {
          name := "Mutation"
          body := .object [] ((types.filter (·.isModel)).flatMap (promisedMutations (.ofTypes types))) } := by
  obtain ⟨types, h⟩ : ∃ types,
      parse .relational "type User { id: ID! name: String } type Post { title: String }".toList =
        .ok types :=
    exists_eq_ok (by decide +kernel)
  exact ⟨types, h, .start, mutationFields_iff h .start⟩

/-- A model with one field, which holds a text. -/
def textModel (name : String) : ModelType where
  name
  fields := [{ name := "a", typeName := "String" }]

/-- A model called like a type by which schemas describe themselves leaves all models without mutations. -/
theorem reserved_without_mutations :
    parse .relational "type __Type { a: String } type B { a: String }".toList =
      .ok [textModel "__Type", textModel "B"] ∧
    ((define (.ofTypes [textModel "__Type", textModel "B"])
        (answer (.ofTypes [textModel "__Type", textModel "B"])) (.made (.shared .mutation))).run {}).1 =
      .error (.unresolvedFields "Mutation" (.badTypeName (.reserved "__Type"))) := by
  refine ⟨rfl, ?_⟩
  decide +kernel

end OpenCrud.Generate
