import OpenCrud.Proofs.Generate.Bodies

/-!
# The fields of the query type

Every model is promised three queries: many items, one item if a field selects one, and a page of items; after
them comes the query for an item of any model. Main result: these are the fields of the query type in this
order, unless a model is called `node` and its query for one item meets the query for an item of any model
(`queryFields_iff`).

The names of the queries keep apart because a plural differs from the name in more than its first letter,
and the names of different models because every root field has one owner.
-/

namespace OpenCrud.Generate

open Datamodel Naming
open MonadExcept (ofExcept)

/-! ## What is promised -/

/-- Whether a scalar or enum field of a type is unique. -/
def hasUniqueLeaf (g : TypeGraph) (t : ModelType) : Bool :=
  t.fields.any fun f => f.isUnique && isLeafOf g f

/-- The arguments of the queries for many items of a model. -/
def listArgs (g : TypeGraph) (t : ModelType) : FieldMap (InputField Handle) :=
  [("where", { type := .named (.made (.of .whereInput t.name)) })] ++
    (if isOrderable g t then [("orderBy", { type := .named (.made (.of .orderBy t.name)) })] else []) ++
    pageArgs

/-- The queries that a model is promised. -/
def promisedOf (g : TypeGraph) (t : ModelType) : FieldMap (OutputField Handle) :=
  [(lowerFirst (pluralName t.name),
    { type := .nonNull (.list (.named (.made (.of .object t.name)))), args := listArgs g t })] ++
  (if hasUniqueLeaf g t then
    [(lowerFirst t.name,
      { type := .named (.made (.of .object t.name))
        args := [("where", { type := .nonNull (.named (.made (.of .whereUnique t.name))) })] })]
  else []) ++
  [(lowerFirst (pluralName t.name) ++ "Connection",
    { type := .nonNull (.named (.made (.of .connection t.name))), args := listArgs g t })]

/-- The query for an item of any model. -/
def nodeField : OutputField Handle where
  type := .named (.made (.shared .node))
  args :=
    [("id", { type := .nonNull (.named (.scalar .id)), description := some "The ID of an object" })]
  description := some "Fetches an object given its ID"

/-- The fields that the query type is promised. -/
def promised (g : TypeGraph) : FieldMap (OutputField Handle) :=
  g.models.flatMap (promisedOf g) ++
    if g.models.any implementsNode then [("node", nodeField)] else []

/-! ## Names -/

section Names

variable {g : TypeGraph} {t : ModelType}

theorem keys_promisedOf : (promisedOf g t).map Prod.fst =
    [manyQueryName t.name] ++ (if hasUniqueLeaf g t then [oneQueryName t.name] else []) ++
      [connectionQueryName t.name] := by
  unfold promisedOf
  split <;> rfl

theorem mem_keys_promisedOf {key : String} : key ∈ (promisedOf g t).map Prod.fst ↔
    key = manyQueryName t.name ∨ (hasUniqueLeaf g t = true ∧ key = oneQueryName t.name) ∨
      key = connectionQueryName t.name := by
  rw [keys_promisedOf]
  cases hasUniqueLeaf g t <;> simp

theorem nodup_keys_promisedOf (hname : isName t.name.toList = true) :
    ((promisedOf g t).map Prod.fst).Nodup := by
  have h1 := (oneQueryName_ne_manyQueryName hname).symm
  have h2 := oneQueryName_ne_connectionQueryName hname
  have h3 : manyQueryName t.name ≠ connectionQueryName t.name := manyQueryName_ne_connectionQueryName
  rw [keys_promisedOf]
  cases hasUniqueLeaf g t <;> simp [h1, h2, h3]

/-- The query for one item of a model is `node` if the model is, since `Node` is no model. -/
theorem oneQueryName_eq_node_iff (ht : TypeWellFormed t) :
    oneQueryName t.name = "node" ↔ t.name = "node" := by
  constructor
  · intro hone
    have hlist := congrArg String.toList hone
    rw [toList_oneQueryName] at hlist
    have hname := ht.isName_name
    cases hchars : t.name.toList with
    | nil =>
      rw [hchars] at hname
      cases hname
    | cons c cs =>
      have hall := all_of_isName hname
      rw [hchars, List.all_cons, Bool.and_eq_true] at hall
      rw [hchars, lowerFirstChars_cons hall.1] at hlist
      obtain ⟨hc, rfl⟩ := List.cons.inj hlist
      have hcases : c = 'n' ∨ c = 'N' :=
        of_ascii (p := fun c => c.toLower = 'n' → c = 'n' ∨ c = 'N') (by decide +kernel)
          (toNat_lt_of_isNameContinue hall.1) hc
      rcases hcases with rfl | rfl
      · exact String.toList_inj.mp hchars
      · have hnode : t.name = "Node" := String.toList_inj.mp hchars
        exact absurd (hnode ▸ ht.not_reserved) (by decide)
  · intro hname
    rw [hname]
    decide

end Names

section Fields

variable {g : TypeGraph} (h : WellFormed g.types)

omit h in
/-- A query that a model is promised is a root field that it claims. -/
theorem claimed_of_mem_keys (t : ModelType) (key : String) (hkey : key ∈ (promisedOf g t).map Prod.fst) :
    (.query, key) ∈ claimedFields t.name := by
  rcases mem_keys_promisedOf.mp hkey with rfl | ⟨_, rfl⟩ | rfl
  · simp [claimedFields, manyQueryName]
  · simp [claimedFields, oneQueryName]
  · simp [claimedFields, connectionQueryName, manyQueryName]

include h

/-- No query of a model takes the place of another one. -/
theorem nodup_keys_models : ((g.models.flatMap (promisedOf g)).map Prod.fst).Nodup :=
  nodup_keys_blocks h (fun t ht => nodup_keys_promisedOf (h.type t ht).isName_name) claimed_of_mem_keys

theorem mem_keys_node_iff : "node" ∈ (g.models.flatMap (promisedOf g)).map Prod.fst ↔
    ∃ t ∈ g.models, t.name = "node" ∧ hasUniqueLeaf g t = true := by
  rw [List.map_flatMap, List.mem_flatMap]
  refine exists_congr fun t => and_congr_right fun ht => ?_
  have hw := h.type t (List.mem_filter.mp ht).1
  rw [mem_keys_promisedOf, ← oneQueryName_eq_node_iff hw]
  constructor
  · rintro (hc | ⟨hunique, hc⟩ | hc)
    · exact absurd hc.symm (manyQueryName_ne_node hw.isName_name)
    · exact ⟨hc.symm, hunique⟩
    · exact absurd hc.symm connectionQueryName_ne_node
  · rintro ⟨hone, hunique⟩
    exact Or.inr (Or.inl ⟨hunique, hone.symm⟩)

/-! ## The fields of the generator -/

theorem manyArgs_fresh {t : ModelType} (ht : t ∈ g.types) :
    manyArgs (fresh g) t.name = .ok (listArgs g t) := by
  rw [manyArgs, fresh_whereInput h ht, fresh_orderBy h ht, listArgs]
  cases isOrderable g t <;> rfl

theorem hasUniqueLeaf_eq {t : ModelType} (ht : t ∈ g.types) : hasUniqueLeaf g t = isSelectable t := by
  rw [hasUniqueLeaf, isSelectable, Bool.eq_iff_iff, List.any_eq_true, List.any_eq_true]
  refine exists_congr fun f => and_congr_right fun hf => ?_
  rw [Bool.and_eq_true]
  exact ⟨And.left, fun hunique => ⟨hunique, isLeafOf_of_isUnique h ht hf hunique⟩⟩

theorem modelQueries_fresh {t : ModelType} (ht : t ∈ g.types) (hfree : t.name ∉ introspectionNames) :
    modelQueries (fresh g) t.name = .ok (promisedOf g t) := by
  have hunique : fresh g (.of .whereUnique t.name) =
      .ok (madeIf (isSelectable t) (.of .whereUnique t.name)) := fresh_whereUnique h ht .none
  have hentries : modelQueries (fresh g) t.name = .ok (.ofEntries (promisedOf g t)) := by
    rw [modelQueries, type_object_fresh h ht, if_neg hfree, manyArgs_fresh h ht, hunique, Ask.type,
      fresh_connection h ht, promisedOf, hasUniqueLeaf_eq h ht]
    cases isSelectable t <;> rfl
  rw [hentries, FieldMap.ofEntries_of_nodup (nodup_keys_promisedOf (h.type t ht).isName_name)]

/-- The fields of the query type: the queries of the models, and then the query for an item of any model. -/
theorem queryFields_fresh (hfree : ∀ t ∈ g.models, t.name ∉ introspectionNames) :
    queryFields g (fresh g) = .ok
      (if g.models.any implementsNode then FieldMap.insert "node" nodeField (g.models.flatMap (promisedOf g))
        else g.models.flatMap (promisedOf g)) := by
  have hblocks : (g.models.mapM fun t => modelQueries (fresh g) t.name) =
      .ok (g.models.map (promisedOf g)) :=
    mapM_eq_ok fun t ht => modelQueries_fresh h (List.mem_filter.mp ht).1 (hfree t ht)
  have hnode : Ask.type (fresh g) (.shared .node) = .ok (.made (.shared .node)) := by
    rw [Ask.type, fresh_shared h rfl]
    rfl
  rw [queryFields, hblocks, ok_bind, ← List.flatMap_def,
    FieldMap.ofEntries_of_nodup (nodup_keys_models h)]
  split
  · rw [hnode]
    rfl
  · rfl

theorem queryFields_eq_promised_iff (hfree : ∀ t ∈ g.models, t.name ∉ introspectionNames) :
    queryFields g (fresh g) = .ok (promised g) ↔
      ¬(g.models.any implementsNode = true ∧
        ∃ t ∈ g.models, t.name = "node" ∧ hasUniqueLeaf g t = true) := by
  rw [queryFields_fresh h hfree, promised, ← mem_keys_node_iff h, Except.ok.injEq]
  cases g.models.any implementsNode with
  | false => simp
  | true =>
    rw [if_pos rfl, if_pos rfl]
    by_cases hmem : "node" ∈ (g.models.flatMap (promisedOf g)).map Prod.fst
    · -- A field that is overwritten keeps the number of fields, a promised one adds to it.
      refine ⟨fun heq => ?_, fun hc => absurd ⟨rfl, hmem⟩ hc⟩
      have hlength := congrArg List.length heq
      rw [FieldMap.length_insert_of_mem hmem, List.length_append, List.length_singleton] at hlength
      omega
    · rw [FieldMap.insert_of_not_mem hmem]
      exact ⟨fun _ hc => hmem hc.2, fun _ => rfl⟩

/-- The query type is made of its fields as they are. -/
theorem define_query_eq_ok_iff {fields : FieldMap (OutputField Handle)} :
    define g (fresh g) (.made (.shared .query)) = .ok { name := "Query", body := .object [] fields } ↔
      queryFields g (fresh g) = .ok fields := by
  rw [define_plain_eq_ok_iff (r := .shared .query) (yields_queryFields h) rfl]
  constructor
  · rintro ⟨_, hmade, ⟨⟩⟩
    exact hmade
  · intro hmade
    exact ⟨fields, hmade, rfl⟩

theorem queryFields_ne_ok {t : ModelType} (ht : t ∈ g.models) (htaken : t.name ∈ introspectionNames)
    (fields : FieldMap (OutputField Handle)) : queryFields g (fresh g) ≠ .ok fields := by
  intro hfields
  rw [queryFields, bind_eq_ok_iff] at hfields
  obtain ⟨blocks, hblocks, _⟩ := hfields
  obtain ⟨block, hblock⟩ := exists_of_mapM_eq_ok hblocks ht
  rw [modelQueries, bind_eq_ok_iff] at hblock
  obtain ⟨object, hobject, _⟩ := hblock
  rw [type_object_fresh h (List.mem_filter.mp ht).1, if_pos htaken] at hobject
  cases hobject

end Fields

/-! ## Main result -/

/--
The queries of models never take each other's places, and the fields of the query type are the promised ones
unless the query for an item of any model takes the place of the query for one `node`.

A model that is called like a type by which schemas describe themselves has no object, so there is no query
type.
-/
theorem queryFields_iff {database : Database} {source : List Char} {types : List ModelType}
    (h : parse database source = .ok types) {c : Cache} (hc : c.Reached (.ofTypes types)) :
    (TypeGraph.ofTypes types).models = types.filter (·.isModel) ∧
    (((TypeGraph.ofTypes types).models.flatMap (promisedOf (.ofTypes types))).map Prod.fst).Nodup ∧
    (((define (.ofTypes types) (answer (.ofTypes types)) (.made (.shared .query))).run c).1 =
        .ok { name := "Query", body := .object [] (promised (.ofTypes types)) } ↔
      (∀ t ∈ types, t.isModel = true → t.name ∉ introspectionNames) ∧
        ¬((∃ t ∈ types, t.isModel = true ∧ implementsNode t = true) ∧
          ∃ t ∈ types, t.isModel = true ∧ t.name = "node" ∧ hasUniqueLeaf (.ofTypes types) t = true)) := by
  have hwf := (wellFormed_of_parse h).ofTypes
  have hmodels : (TypeGraph.ofTypes types).models = types.filter (·.isModel) := by
    rw [TypeGraph.models, TypeGraph.types_ofTypes (wellFormed_of_parse h).nodup_names]
  have hmem : ∀ t, t ∈ (TypeGraph.ofTypes types).models ↔ t ∈ types ∧ t.isModel = true := by
    intro t
    rw [hmodels, List.mem_filter]
  have hdefine : ((define (.ofTypes types) (answer (.ofTypes types)) (.made (.shared .query))).run c).1 =
        .ok { name := "Query", body := .object [] (promised (.ofTypes types)) } ↔
      queryFields (.ofTypes types) (fresh (.ofTypes types)) = .ok (promised (.ofTypes types)) := by
    rw [run_define hc]
    exact define_query_eq_ok_iff hwf
  -- The two sides differ only in where the models are listed: in the graph or in the datamodel.
  refine ⟨hmodels, nodup_keys_models hwf, hdefine.trans ⟨fun hfields => ?_, ?_⟩⟩
  · have hfree : ∀ t ∈ (TypeGraph.ofTypes types).models, t.name ∉ introspectionNames :=
      fun t ht htaken => queryFields_ne_ok hwf ht htaken _ hfields
    refine ⟨fun t ht hmodel => hfree t ((hmem t).mpr ⟨ht, hmodel⟩), ?_⟩
    have hnode := (queryFields_eq_promised_iff hwf hfree).mp hfields
    rintro ⟨⟨t, ht, hmodel, himpl⟩, u, hu, humodel, hrest⟩
    refine hnode ⟨List.any_eq_true.mpr ⟨t, (hmem t).mpr ⟨ht, hmodel⟩, himpl⟩, u, ?_, hrest⟩
    exact (hmem u).mpr ⟨hu, humodel⟩
  · rintro ⟨hfree, hnode⟩
    refine (queryFields_eq_promised_iff hwf fun t ht => ?_).mpr ?_
    · exact hfree t ((hmem t).mp ht).1 ((hmem t).mp ht).2
    · rintro ⟨hany, u, hu, hrest⟩
      obtain ⟨t, ht, himpl⟩ := List.any_eq_true.mp hany
      refine hnode ⟨⟨t, ((hmem t).mp ht).1, ((hmem t).mp ht).2, himpl⟩, u, ?_⟩
      exact ⟨((hmem u).mp hu).1, ((hmem u).mp hu).2, hrest⟩

/-- A model with the query for an item of any model, and a model without unique fields. -/
theorem queryFields_user_post : ∃ types,
    parse .relational "type User { id: ID! } type Post { title: String }".toList = .ok types ∧
    Cache.Reached (.ofTypes types) {} ∧
    (TypeGraph.ofTypes types).models = types.filter (·.isModel) ∧
    (((TypeGraph.ofTypes types).models.flatMap (promisedOf (.ofTypes types))).map Prod.fst).Nodup ∧
    (((define (.ofTypes types) (answer (.ofTypes types)) (.made (.shared .query))).run {}).1 =
        .ok { name := "Query", body := .object [] (promised (.ofTypes types)) } ↔
      (∀ t ∈ types, t.isModel = true → t.name ∉ introspectionNames) ∧
        ¬((∃ t ∈ types, t.isModel = true ∧ implementsNode t = true) ∧
          ∃ t ∈ types, t.isModel = true ∧ t.name = "node" ∧ hasUniqueLeaf (.ofTypes types) t = true)) := by
  obtain ⟨types, h⟩ : ∃ types,
      parse .relational "type User { id: ID! } type Post { title: String }".toList = .ok types :=
    exists_eq_ok (by decide +kernel)
  exact ⟨types, h, .start, queryFields_iff h .start⟩

/-- A model called `node` with an identifier. -/
def nodeModel : ModelType where
  name := "node"
  fields :=
    [{ name := "id", typeName := "ID", isRequired := true, isId := true, isUnique := true
       isReadOnly := true }]

/-- The query for one `node` is gone: the query for an item of any model stands in its place. -/
theorem node_loses_query :
    parse .relational "type node { id: ID! }".toList = .ok [nodeModel] ∧
    ((define (.ofTypes [nodeModel]) (answer (.ofTypes [nodeModel])) (.made (.shared .query))).run {}).1 ≠
      .ok { name := "Query", body := .object [] (promised (.ofTypes [nodeModel])) } ∧
    ((define (.ofTypes [nodeModel]) (answer (.ofTypes [nodeModel])) (.made (.shared .query))).run {}).1.map
      (fun d => d.body.outputFields.lookup "node") = .ok (some nodeField) := by
  refine ⟨rfl, ?_, ?_⟩
  · decide +kernel
  · decide +kernel

end OpenCrud.Generate
