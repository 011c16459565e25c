import OpenCrud.Generate.Assemble
import OpenCrud.Proofs.Generate.QueryFields
import OpenCrud.Proofs.Generate.Reached
import OpenCrud.Proofs.Schema.Reach

/-!
# When the names of a schema's types are unique

A schema has one type of each name. For an accepted datamodel two things can get in the way: a type of the
datamodel is called like a type by which schemas describe themselves, or the aggregate of a model is called
like another generated type. Main result: there is a schema exactly where neither is the case
(`uniqueNames_iff`).

The walk over the types needs a bound on their number (`length_possibleTypes_le`).
-/

namespace OpenCrud.Generate

open Datamodel
open MonadExcept (ofExcept)

/-! ## All types of a graph -/

/-- The types that can be made for a type of the datamodel. -/
def typesOf (t : ModelType) : List Handle :=
  [.made (.of .enum t.name), .made (.of .object t.name), .made (.of .aggregate t.name)] ++
    endings.map fun row => .made ⟨row.2.1, t.name, row.2.2⟩

/-- The types that a schema of a graph can hold, and more. -/
def possibleTypes (g : TypeGraph) : List Handle := commonTypes ++ g.types.flatMap typesOf

theorem mem_possibleTypes {g : TypeGraph} {x : Handle} (hx : x.Valid g) : x ∈ possibleTypes g := by
  have hmem : ∀ t ∈ g.types, ∀ y ∈ typesOf t, y ∈ possibleTypes g := fun t ht y hy =>
    List.mem_append_right _ (List.mem_flatMap.mpr ⟨t, ht, hy⟩)
  cases hx with
  | scalar s => exact List.mem_append_left _ (mem_commonTypes_scalar s)
  | shared hk => exact List.mem_append_left _ (mem_commonTypes_shared hk)
  | enum ht _ => exact hmem _ ht _ (by simp [typesOf])
  | object ht _ => exact hmem _ ht _ (by simp [typesOf])
  | aggregate ht _ => exact hmem _ ht _ (by simp [typesOf])
  | helper ht _ hrow _ _ =>
    exact hmem _ ht _ (List.mem_append_right _ (List.mem_map.mpr ⟨_, hrow, rfl⟩))

theorem length_possibleTypes_le (g : TypeGraph) : (possibleTypes g).length ≤ typeBound g := by
  have htypes : ∀ ts : List ModelType, (ts.flatMap typesOf).length = 19 * ts.length := by
    intro ts
    induction ts with
    | nil => rfl
    | cons t ts ih =>
      have hone : (typesOf t).length = 19 := rfl
      rw [List.flatMap_cons, List.length_append, ih, hone, List.length_cons]
      omega
  have hcommon : commonTypes.length = 14 := rfl
  rw [possibleTypes, List.length_append, htypes, hcommon, typeBound]
  omega

/-! ## The walk over a schema -/

/-- The types that a schema is built from beside those of the datamodel. There are no root types without
models. -/
def rootTypes (g : TypeGraph) : List Handle :=
  (if g.models.isEmpty then [] else [.made (.shared .query), .made (.shared .mutation)]) ++
    [.scalar .boolean, .scalar .string]

/-- The types that a schema is built from. -/
def schemaRoots (g : TypeGraph) : List Handle := g.types.map ownType ++ rootTypes g

theorem valid_schemaRoots {g : TypeGraph} : ∀ x ∈ schemaRoots g, x.Valid g := by
  intro x hx
  rcases List.mem_append.mp hx with hx | hx
  · obtain ⟨t, ht, rfl⟩ := List.mem_map.mp hx
    exact valid_ownType ht
  · rcases List.mem_append.mp hx with hx | hx
    · split at hx
      · cases hx
      · simp only [List.mem_cons, List.not_mem_nil, or_false] at hx
        rcases hx with rfl | rfl
        · exact .shared rfl
        · exact .shared rfl
    · simp only [List.mem_cons, List.not_mem_nil, or_false] at hx
      rcases hx with rfl | rfl
      · exact .scalar _
      · exact .scalar _

section Walk

variable {g : TypeGraph} (h : WellFormed g.types) (hfree : ∀ t ∈ g.types, t.name ∉ introspectionNames)

include h hfree

theorem define_eq_ok {x : Handle} (hx : x.Valid g) :
    ∃ d, define g (fresh g) x = .ok d ∧ d.name = x.name ∧ d.body.Sound (Handle.Valid g) :=
  (yields_define h hx).exists_eq_ok hfree

theorem world_reached :
    Schema.Reach.World (define g (fresh g)) (Handle.ReachedFrom g (schemaRoots g)) (possibleTypes g) where
  defined x hx := by
    obtain ⟨d, hd, _⟩ := define_eq_ok h hfree (valid_of_reachedFrom h valid_schemaRoots hx)
    exact ⟨d, hd⟩
  closed _ _ hx hd _ hy := .ref hx hd hy
  mem _ hx := mem_possibleTypes (valid_of_reachedFrom h valid_schemaRoots hx)

omit hfree in
/-- A walk over a schema finds exactly the types that are reached. -/
theorem mem_refs_iff {found : Schema.Reach.Found Handle}
    (hwalked : Schema.Reach.Walked (define g (fresh g)) (Handle.ReachedFrom g (schemaRoots g))
      (· = .absent) [] (schemaRoots g) found) {x : Handle} :
    x ∈ found.refs ↔ x.ReachedFrom g (schemaRoots g) := by
  constructor
  · intro hx
    obtain ⟨e, he, rfl⟩ := List.mem_map.mp hx
    exact (hwalked.valid.entry e he).1
  · intro hx
    -- A walk skips what is absent, and nothing that is reached is.
    have hne : ∀ {y : Handle}, y.ReachedFrom g (schemaRoots g) → decide (y = .absent) = false := by
      intro y hy
      simpa using (valid_of_reachedFrom h valid_schemaRoots hy).ne_absent
    induction hx with
    | root hx =>
      rcases hwalked.stack _ hx with hskip | hx'
      · rw [hne (.root hx)] at hskip
        cases hskip
      · exact hx'
    | @ref x y d hx hd hy ih =>
      obtain ⟨e, he, rfl⟩ := List.mem_map.mp ih
      have hentry := (hwalked.valid.entry e he).2
      rw [hd] at hentry
      rcases hwalked.closed e he y (Except.ok.inj hentry ▸ hy) with hskip | hy'
      · rw [hne (.ref hx hd hy)] at hskip
        cases hskip
      · exact hy'

omit hfree in
theorem rootType_fresh {k : Kind} (hk : k.isShared = true) :
    rootType g (fresh g) k = .ok (if g.models.isEmpty then none else some (.made (.shared k))) := by
  unfold rootType
  split
  · rfl
  · exact fresh_shared h hk

theorem mapM_ownRequest :
    (g.types.mapM fun t => fresh g (ownRequest t)) = .ok (g.types.map fun t => some (ownType t)) := by
  refine mapM_eq_ok fun t ht => ?_
  obtain ⟨made, hmade, rfl⟩ := (yields_ownRequest h ht).exists_eq_ok hfree
  exact hmade

/-- The walk over a schema comes to an end, and it finds what is reached. -/
theorem exists_walk : ∃ found,
    Schema.Reach.types (define g (fresh g)) (· = .absent) (typeBound g) (g.types.map ownType)
      (rootTypes g) = .ok found ∧
    Schema.Reach.Walked (define g (fresh g)) (Handle.ReachedFrom g (schemaRoots g)) (· = .absent) []
      (schemaRoots g) found :=
  Schema.Reach.types_spec (world_reached h hfree) (length_possibleTypes_le g)
    (fun _ hy => .root (List.mem_append_left _ hy)) fun _ hy => .root (List.mem_append_right _ hy)

/-- What is found has the names of its references. -/
theorem names_of_walked {found : Schema.Reach.Found Handle}
    (hwalked : Schema.Reach.Walked (define g (fresh g)) (Handle.ReachedFrom g (schemaRoots g))
      (· = .absent) [] (schemaRoots g) found) :
    (found.map fun entry => entry.2.name) = found.refs.map Handle.name := by
  rw [Schema.Reach.Found.refs, List.map_map]
  refine List.map_congr_left fun e he => ?_
  obtain ⟨hreached, hdefine⟩ := hwalked.valid.entry e he
  obtain ⟨d, hd, hname, _⟩ := define_eq_ok h hfree (valid_of_reachedFrom h valid_schemaRoots hreached)
  rw [hdefine] at hd
  rw [Except.ok.inj hd, hname]
  rfl

/-- The name of a root type. There are none without models. -/
def rootName (g : TypeGraph) (k : Kind) : Option String :=
  if g.models.isEmpty then none else some (Request.shared k).typeName

omit h hfree in
theorem filterMap_ownTypes :
    (g.types.map fun t => some (ownType t)).filterMap id = g.types.map ownType := by
  rw [List.filterMap_map]
  exact congrFun List.filterMap_eq_map g.types

omit h hfree in
theorem toList_roots :
    (if g.models.isEmpty then none else some (Handle.made (.shared .query))).toList ++
      (if g.models.isEmpty then none else some (Handle.made (.shared .mutation))).toList ++
        [.scalar .boolean, .scalar .string] = rootTypes g := by
  unfold rootTypes
  split <;> rfl

/-- A schema holds what the walk finds, unless two types have the same name. -/
theorem assemble_of_walk {found : Schema.Reach.Found Handle}
    (hfound : Schema.Reach.types (define g (fresh g)) (· = .absent) (typeBound g)
      (g.types.map ownType) (rootTypes g) = .ok found) :
    assemble g (fresh g) =
      match Schema.Reach.repeatedName? [] (found.map fun entry => entry.2.name) with
      | some name => .error (.repeatedTypeName name)
      | none => .ok {
          types := found.map fun entry => entry.2.map Handle.name
          query := rootName g .query
          mutation := rootName g .mutation } := by
  have hname : ∀ k : Kind, (if g.models.isEmpty then none else some (Handle.made (.shared k))).map
      Handle.name = rootName g k := by
    intro k
    unfold rootName
    split <;> rfl
  rw [assemble, rootType_fresh h rfl, rootType_fresh h rfl, mapM_ownRequest h hfree]
  simp only [ok_bind, filterMap_ownTypes, toList_roots, hfound, hname]
  rfl

/-- A schema holds the types that are reached, each once, unless two of them have the same name. -/
theorem assemble_fresh :
    ∃ reached : List Handle, reached.Nodup ∧
      (∀ x, x ∈ reached ↔ x.ReachedFrom g (schemaRoots g)) ∧
      ((reached.map Handle.name).Nodup → ∃ s, assemble g (fresh g) = .ok s ∧
        s.types.map (·.name) = reached.map Handle.name) ∧
      (¬(reached.map Handle.name).Nodup → ∃ name, assemble g (fresh g) = .error (.repeatedTypeName name)) := by
  obtain ⟨found, hfound, hwalked⟩ := exists_walk h hfree
  have hnames := names_of_walked h hfree hwalked
  have hrepeated : Schema.Reach.repeatedName? [] (found.refs.map Handle.name) = none ↔
      (found.refs.map Handle.name).Nodup ∧ ∀ n ∈ found.refs.map Handle.name, n ∉ [] :=
    Schema.Reach.repeatedName?_eq_none_iff
  rw [assemble_of_walk h hfree hfound, hnames]
  refine ⟨found.refs, hwalked.valid.nodup, fun x => mem_refs_iff h hwalked, fun hnodup => ?_,
    fun hnodup => ?_⟩
  · rw [hrepeated.mpr ⟨hnodup, fun _ _ => List.not_mem_nil⟩]
    refine ⟨_, rfl, ?_⟩
    rw [← hnames, List.map_map]
    rfl
  · cases hname : Schema.Reach.repeatedName? [] (found.refs.map Handle.name) with
    | none => exact absurd (hrepeated.mp hname).1 hnodup
    | some name => exact ⟨name, rfl⟩

/-! ## What is reached of a model -/

omit h hfree in
theorem mem_refs_of_mem {interfaces : List Handle} {fields : FieldMap (OutputField Handle)}
    {entry : String × OutputField Handle} (hentry : entry ∈ fields) :
    entry.2.type.base ∈ (TypeBody.object interfaces fields).refs :=
  List.mem_append_right _ (List.mem_flatMap.mpr ⟨entry, hentry, List.mem_cons_self⟩)

omit h hfree in
/-- There are root types where there is a model. -/
theorem root_mem_schemaRoots {k : Kind} (hk : k = .query ∨ k = .mutation) {t : ModelType} (ht : t ∈ g.models) :
    Handle.made (.shared k) ∈ schemaRoots g := by
  have hne : g.models.isEmpty = false := List.isEmpty_eq_false_iff.mpr (List.ne_nil_of_mem ht)
  rcases hk with rfl | rfl <;> simp [schemaRoots, rootTypes, hne]

/-- What a query of a model refers to is reached. The query keeps its place, whether or not one for `node` is
overwritten. -/
theorem reached_of_promisedOf {t : ModelType} (ht : t ∈ g.models) {entry : String × OutputField Handle}
    (hentry : entry ∈ promisedOf g t) (hne : entry.1 ≠ "node") {y : Handle} (hy : y ∈ entry.2.refs) :
    y.ReachedFrom g (schemaRoots g) := by
  have hqueries := queryFields_fresh h fun t ht => hfree t (List.mem_filter.mp ht).1
  have hmem : entry ∈ g.models.flatMap (promisedOf g) := List.mem_flatMap.mpr ⟨t, ht, hentry⟩
  refine .ref (.root (root_mem_schemaRoots (.inl rfl) ht)) ((define_query_eq_ok_iff h).mpr hqueries) ?_
  split
  · exact List.mem_flatMap.mpr ⟨entry, FieldMap.mem_insert_of_ne hmem hne, hy⟩
  · exact List.mem_flatMap.mpr ⟨entry, hmem, hy⟩

/-- Every model has a page among the queries. -/
theorem reached_connection {t : ModelType} (ht : t ∈ g.models) :
    Handle.ReachedFrom g (schemaRoots g) (.made (.of .connection t.name)) :=
  reached_of_promisedOf h hfree ht (List.mem_append_right _ (List.mem_singleton_self _))
    connectionQueryName_ne_node List.mem_cons_self

/-- Every model has a filter among the queries. -/
theorem reached_whereInput {t : ModelType} (ht : t ∈ g.models) :
    Handle.ReachedFrom g (schemaRoots g) (.made (.of .whereInput t.name)) :=
  reached_of_promisedOf h hfree ht (List.mem_append_right _ (List.mem_singleton_self _))
    connectionQueryName_ne_node (List.mem_cons_of_mem _ List.mem_cons_self)

/-- Every model has an aggregate. -/
theorem reached_aggregate {t : ModelType} (ht : t ∈ g.models) :
    Handle.ReachedFrom g (schemaRoots g) (.made (.of .aggregate t.name)) := by
  have hconnection := reached_connection h hfree ht
  have hmem := (List.mem_filter.mp ht).1
  have hyields := yields_connectionFields h hmem (List.mem_filter.mp ht).2
  obtain ⟨fields, hfields, hentry⟩ : ∃ fields, connectionFields (fresh g) t.name = .ok fields ∧
      ("aggregate", { type := .nonNull (.named (.made (.of .aggregate t.name))) }) ∈ fields := by
    rw [connectionFields, Ask.type, fresh_shared h rfl, Ask.type, fresh_edge h hmem, Ask.type,
      fresh_aggregate h hmem]
    exact ⟨_, rfl, List.mem_cons_of_mem _ (List.mem_cons_of_mem _ List.mem_cons_self)⟩
  have hdefine := (define_plain_eq_ok_iff (r := .of .connection t.name) hyields rfl).mpr ⟨fields, hfields, rfl⟩
  exact .ref hconnection hdefine (mem_refs_of_mem hentry)

omit h in
theorem name_not_mem_introspectionNames {x : Handle} (hx : x.Valid g) :
    x.name ∉ introspectionNames := by
  have hcommon : ∀ y ∈ commonTypes, y.name ∉ introspectionNames := by decide
  have hfixed : ∀ n, n ∉ fixedNames → n ∉ introspectionNames := fun n hn hc =>
    hn (List.mem_append_right _ hc)
  cases hx with
  | scalar s => exact hcommon _ (mem_commonTypes_scalar s)
  | shared hk => exact hcommon _ (mem_commonTypes_shared hk)
  | enum ht _ => exact hfree _ ht
  | object ht _ => exact hfree _ ht
  | aggregate _ _ => exact hfixed _ aggregate_not_mem_fixedNames
  | helper _ _ hrow _ _ =>
    rw [Handle.name, typeName_of_mem_endings hrow]
    exact hfixed _ (append_ending_not_mem_fixedNames (mem_generatedSuffixes hrow))

/-- The types that are reached have different names unless an aggregate meets a type with an ending: every
model has its aggregate among them. -/
theorem nodup_names_iff {reached : List Handle} (hreached : reached.Nodup)
    (hmem : ∀ x, x ∈ reached ↔ x.ReachedFrom g (schemaRoots g)) :
    (reached.map Handle.name).Nodup ↔ ∀ t ∈ g.models, ∀ u ∈ g.types, ∀ s k a, (s, k, a) ∈ endings →
      Handle.ReachedFrom g (schemaRoots g) (.made ⟨k, u.name, a⟩) → aggregateStart ++ t.name ≠ u.name ++ s := by
  constructor
  · intro hnodup t ht u hu s k a hrow hhelper hname
    have heq : Handle.made (.of .aggregate t.name) = .made ⟨k, u.name, a⟩ := by
      refine List.inj_on_of_nodup_map hnodup ((hmem _).mpr (reached_aggregate h hfree ht))
        ((hmem _).mpr hhelper) ?_
      rw [Handle.name, Handle.name, typeName_of_mem_endings hrow]
      exact hname
    have hkind : ∀ row ∈ endings, row.2.1 ≠ .aggregate := by decide
    rw [Handle.made.injEq, Request.of, Request.mk.injEq] at heq
    exact hkind _ hrow heq.1.symm
  · intro happart
    have hvalid : ∀ x ∈ reached, x.Valid g := fun x hx =>
      valid_of_reachedFrom h valid_schemaRoots ((hmem x).mp hx)
    have hnoclash : ∀ x, ∀ y ∈ reached, ¬Clash g x y := by
      rintro x y hy ⟨t, ht, hmodel, _, u, hu, s, k, a, hrow, rfl, hname⟩
      exact happart t (List.mem_filter.mpr ⟨ht, hmodel⟩) u hu s k a hrow ((hmem _).mp hy) hname
    refine hreached.map_on fun x hx y hy hname => ?_
    rcases clash_of_name_eq h (hvalid x hx) (hvalid y hy) hname with heq | hclash | hclash
    · exact heq
    · exact absurd hclash (hnoclash x y hy)
    · exact absurd hclash (hnoclash y x hx)

omit h in
/-- The types by which schemas describe themselves add no name a second time. -/
theorem nodup_names_allTypes {s : Schema} {reached : List Handle} (hvalid : ∀ x ∈ reached, x.Valid g)
    (hnames : s.types.map (·.name) = reached.map Handle.name) (hnodup : (reached.map Handle.name).Nodup) :
    (s.allTypes.map (·.name)).Nodup := by
  rw [Schema.allTypes, List.map_append, Introspection.map_name_types, hnames, List.nodup_append]
  refine ⟨hnodup, by decide, fun n hn n' hn' heq => ?_⟩
  obtain ⟨x, hx, rfl⟩ := List.mem_map.mp hn
  exact name_not_mem_introspectionNames hfree (hvalid x hx) (heq ▸ hn')

end Walk

/-- Where all types of the datamodel are made, none of their names is taken. -/
theorem free_of_ownRequests {g : TypeGraph} (h : WellFormed g.types) {own : List (Option Handle)}
    (hown : (g.types.mapM fun t => fresh g (ownRequest t)) = .ok own) :
    ∀ t ∈ g.types, t.name ∉ introspectionNames := by
  intro t ht htaken
  obtain ⟨made, hmade⟩ := exists_of_mapM_eq_ok hown ht
  unfold ownRequest at hmade
  cases henum : t.isEnum with
  | true =>
    rw [henum, if_pos rfl, fresh_scalar_enum h ht henum, fresh_enum h ht henum,
      make_of_typeName_eq (h.type t ht) rfl, if_pos htaken] at hmade
    cases hmade
  | false =>
    rw [henum, if_neg Bool.false_ne_true, fresh_object h ht,
      make_of_typeName_eq (h.type t ht) rfl, if_pos htaken] at hmade
    cases hmade

/-- A taken name keeps every schema from being assembled. -/
theorem assemble_ne_ok {g : TypeGraph} (h : WellFormed g.types) {t : ModelType} (ht : t ∈ g.types)
    (htaken : t.name ∈ introspectionNames) (s : Schema) : assemble g (fresh g) ≠ .ok s := by
  intro hs
  simp only [assemble, bind_eq_ok_iff] at hs
  obtain ⟨_, _, _, _, own, hown, _⟩ := hs
  exact free_of_ownRequests h hown t ht htaken

/-! ## Main result -/

/-- There is a schema whose types have different names exactly where no type of the datamodel is called like
a type by which schemas describe themselves, and no aggregate like another generated type that is reached. -/
theorem uniqueNames_iff {database : Database} {source : List Char} {types : List ModelType}
    (h : parse database source = .ok types) :
    (∃ s, schema (.ofTypes types) = .ok s ∧ (s.allTypes.map (·.name)).Nodup) ↔
      (∀ t ∈ types, t.name ∉ introspectionNames) ∧
        ∀ t ∈ types, t.isModel = true → ∀ u ∈ types, ∀ s k a, (s, k, a) ∈ endings →
          Handle.ReachedFrom (.ofTypes types) (schemaRoots (.ofTypes types)) (.made ⟨k, u.name, a⟩) →
            "Aggregate" ++ t.name ≠ u.name ++ s := by
  have hwf := (wellFormed_of_parse h).ofTypes
  have htypes := TypeGraph.types_ofTypes (wellFormed_of_parse h).nodup_names
  rw [schema_eq_assemble]
  constructor
  · rintro ⟨s, hs, _⟩
    have hfree : ∀ t ∈ (TypeGraph.ofTypes types).types, t.name ∉ introspectionNames :=
      fun t ht htaken => assemble_ne_ok hwf ht htaken s hs
    obtain ⟨reached, hreached, hmem, _, hrepeated⟩ := assemble_fresh hwf hfree
    -- Two reached types of one name would have stopped the schema.
    have hnodup : (reached.map Handle.name).Nodup := by
      by_contra hc
      obtain ⟨name, herror⟩ := hrepeated hc
      rw [hs] at herror
      cases herror
    refine ⟨htypes ▸ hfree, fun t ht hmodel u hu => ?_⟩
    exact (nodup_names_iff hwf hfree hreached hmem).mp hnodup t
      (List.mem_filter.mpr ⟨htypes.symm ▸ ht, hmodel⟩) u (htypes.symm ▸ hu)
  · rintro ⟨hfree, happart⟩
    have hfree : ∀ t ∈ (TypeGraph.ofTypes types).types, t.name ∉ introspectionNames := by
      rw [htypes]
      exact hfree
    obtain ⟨reached, hreached, hmem, hschema, _⟩ := assemble_fresh hwf hfree
    have hnodup : (reached.map Handle.name).Nodup := by
      refine (nodup_names_iff hwf hfree hreached hmem).mpr fun t ht u hu => ?_
      obtain ⟨ht, hmodel⟩ := List.mem_filter.mp ht
      exact happart t (htypes ▸ ht) hmodel u (htypes ▸ hu)
    obtain ⟨s, hs, hnames⟩ := hschema hnodup
    refine ⟨s, hs, nodup_names_allTypes hfree (fun x hx => ?_) hnames hnodup⟩
    exact valid_of_reachedFrom hwf valid_schemaRoots ((hmem x).mp hx)

/-- Two models whose names have nothing to do with those of generated types. -/
theorem uniqueNames_user_post : ∃ types,
    parse .relational "type User { id: ID! } type Post { title: String }".toList = .ok types ∧
    ((∃ s, schema (.ofTypes types) = .ok s ∧ (s.allTypes.map (·.name)).Nodup) ↔
      (∀ t ∈ types, t.name ∉ introspectionNames) ∧
        ∀ t ∈ types, t.isModel = true → ∀ u ∈ types, ∀ s k a, (s, k, a) ∈ endings →
          Handle.ReachedFrom (.ofTypes types) (schemaRoots (.ofTypes types)) (.made ⟨k, u.name, a⟩) →
            "Aggregate" ++ t.name ≠ u.name ++ s) := by
  obtain ⟨types, h⟩ : ∃ types,
      parse .relational "type User { id: ID! } type Post { title: String }".toList = .ok types :=
    exists_eq_ok (by decide +kernel)
  exact ⟨types, h, uniqueNames_iff h⟩

/-- A model with one field, which holds a number. -/
def numberModel (name : String) : ModelType where
  name
  fields := [{ name := "a", typeName := "Int" }]

/-- The aggregate of one model is called like the edge of another one, and a model like a type by which schemas
describe themselves. -/
theorem repeated_and_reserved :
    (parse .relational "type Edge { a: Int } type Aggregate { a: Int }".toList =
        .ok [numberModel "Edge", numberModel "Aggregate"] ∧
      schema (.ofTypes [numberModel "Edge", numberModel "Aggregate"]) =
        .error (.repeatedTypeName "AggregateEdge")) ∧
    parse .relational "type __Type { a: Int }".toList = .ok [numberModel "__Type"] ∧
      schema (.ofTypes [numberModel "__Type"]) = .error (.badTypeName (.reserved "__Type")) := by
  refine ⟨⟨rfl, ?_⟩, rfl, ?_⟩
  · decide +kernel
  · decide +kernel

end OpenCrud.Generate
