import OpenCrud.Client.Declaration
import OpenCrud.Proofs.Generate.MutationFields
import OpenCrud.Proofs.Generate.UniqueNames

/-!
# What a schema holds

A schema holds what is reached in its graph, each type under its name (`Assembled`). So a statement about a
finished schema is one about the types behind handles, which can be worked out one by one.
-/

namespace OpenCrud.Generate

open Datamodel
open Client (Category)
open MonadExcept (ofExcept)

/-! ## Types by name -/

/-- That a schema holds the types of a graph, under their names. -/
structure Assembled (g : TypeGraph) (s : Schema) : Prop where
  free : ∀ t ∈ g.types, t.name ∉ introspectionNames
  query : s.query = rootName g .query
  mutation : s.mutation = rootName g .mutation
  subscription : s.subscription = none
  description : s.description = none
  types : ∀ t, t ∈ s.types ↔ ∃ x : Handle, x.ReachedFrom g (schemaRoots g) ∧
    ∃ d, define g (fresh g) x = .ok d ∧ d.map Handle.name = t
  find? : ∀ x : Handle, x.ReachedFrom g (schemaRoots g) → ∀ d, define g (fresh g) x = .ok d →
    s.find? x.name = some (d.map Handle.name)

/-- Every schema of an accepted datamodel holds the types of its graph. -/
theorem assembled_of_eq_ok {g : TypeGraph} (h : WellFormed g.types) {s : Schema}
    (hs : assemble g (fresh g) = .ok s) : Assembled g s := by
  have hfree : ∀ t ∈ g.types, t.name ∉ introspectionNames := fun t ht htaken =>
    assemble_ne_ok h ht htaken s hs
  obtain ⟨found, hfound, hwalked⟩ := exists_walk h hfree
  have hnames := names_of_walked h hfree hwalked
  rw [assemble_of_walk h hfree hfound] at hs
  split at hs
  · cases hs
  · rename_i hrepeated
    cases hs
    have hnodup : (found.refs.map Handle.name).Nodup :=
      hnames ▸ (Schema.Reach.repeatedName?_eq_none_iff.mp hrepeated).1
    have hvalid : ∀ x ∈ found.refs, x.Valid g := fun x hx =>
      valid_of_reachedFrom h valid_schemaRoots ((mem_refs_iff h hwalked).mp hx)
    have htypes : (found.map fun entry => entry.2.map Handle.name).map (·.name) =
        found.refs.map Handle.name := by
      rw [← hnames, List.map_map]
      rfl
    -- The walk has found all that is reached, each with its type.
    have hentry : ∀ x : Handle, x.ReachedFrom g (schemaRoots g) → ∀ d, define g (fresh g) x = .ok d →
        (x, d) ∈ found := by
      intro x hx d hd
      obtain ⟨e, he, rfl⟩ := List.mem_map.mp ((mem_refs_iff h hwalked).mpr hx)
      obtain rfl : e.2 = d := Except.ok.inj ((hwalked.valid.entry e he).2.symm.trans hd)
      exact he
    have hmem : ∀ e ∈ found, e.2.map Handle.name ∈ found.map fun entry => entry.2.map Handle.name :=
      fun e he => List.mem_map_of_mem (f := fun entry => entry.2.map Handle.name) he
    refine ⟨hfree, rfl, rfl, rfl, rfl, fun t => ⟨fun ht => ?_, ?_⟩, fun x hx d hd => ?_⟩
    · obtain ⟨e, he, rfl⟩ := List.mem_map.mp ht
      exact ⟨e.1, (mem_refs_iff h hwalked).mp (List.mem_map_of_mem he), e.2, (hwalked.valid.entry e he).2, rfl⟩
    · rintro ⟨x, hx, d, hd, rfl⟩
      exact hmem (x, d) (hentry x hx d hd)
    · have he := hentry x hx d hd
      obtain ⟨d', hd', hname, _⟩ := define_eq_ok h hfree (hvalid x (List.mem_map_of_mem he))
      obtain rfl : d = d' := Except.ok.inj (hd.symm.trans hd')
      rw [← hname, Schema.find?]
      refine find?_name_of_mem (nodup_names_allTypes hfree hvalid htypes hnodup) (a := d.map Handle.name) ?_
      exact List.mem_append_left _ (hmem (x, d) he)

/-- Every schema of an accepted datamodel has types of different names. -/
theorem nodup_names_of_eq_ok {g : TypeGraph} (h : WellFormed g.types) {s : Schema}
    (hs : assemble g (fresh g) = .ok s) : (s.types.map (·.name)).Nodup := by
  have hfree := (assembled_of_eq_ok h hs).free
  obtain ⟨reached, _, _, hschema, hrepeated⟩ := assemble_fresh h hfree
  by_cases hnodup : (reached.map Handle.name).Nodup
  · obtain ⟨s', hs', hnames⟩ := hschema hnodup
    obtain rfl : s = s' := Except.ok.inj (hs.symm.trans hs')
    rwa [hnames]
  · obtain ⟨name, herror⟩ := hrepeated hnodup
    rw [hs] at herror
    cases herror

/-! ## Categories -/

/-- The category of the types of a kind. -/
def Kind.category : Kind → Category
  | .scalar => .scalar
  | .enum | .orderBy => .enum
  | .node => .interface
  | .object | .pageInfo | .batchPayload | .edge | .aggregate | .connection | .query | .mutation => .object
  | _ => .inputObject

theorem category_of_define {g : TypeGraph} {ask : Ask (Except Error)} {r : Request} {d : NamedType Handle}
    (hd : define g ask (.made r) = .ok d) : Category.of d = r.kind.category := by
  obtain ⟨b, hb, hd⟩ := bind_eq_ok_iff.mp hd
  cases hd
  obtain ⟨kind, subject, args⟩ := r
  cases kind
  case scalar =>
    cases hb
    rfl
  case enum | orderBy =>
    obtain ⟨_, _, hb⟩ := bind_eq_ok_iff.mp hb
    cases hb
    rfl
  case node =>
    obtain ⟨_, _, hb⟩ := bind_eq_ok_iff.mp hb
    obtain ⟨_, _, hb⟩ := bind_eq_ok_iff.mp hb
    cases hb
    rfl
  -- Objects ask for their interfaces and inputs for their subjects; then both work out their fields.
  all_goals
    obtain ⟨_, _, hb⟩ := bind_eq_ok_iff.mp hb
    obtain ⟨_, _, hb⟩ := bind_eq_ok_iff.mp hb
    obtain ⟨_, _, hb⟩ := bind_eq_ok_iff.mp hb
    cases hb
    rfl

/-- The kinds of the types that operations start from. -/
def Kind.isRoot : Kind → Bool
  | .query | .mutation => true
  | _ => false

/-- The category of the type behind a handle. -/
def Handle.category : Handle → Category
  | .made r => r.kind.category
  | _ => .scalar

theorem category_of_define_handle {g : TypeGraph} {ask : Ask (Except Error)} {x : Handle} {d : NamedType Handle}
    (hd : define g ask x = .ok d) : Category.of d = x.category := by
  cases x with
  | made r => exact category_of_define hd
  | scalar scalar =>
    cases hd
    rfl
  | absent =>
    cases hd
    rfl

theorem category_map {ρ σ : Type} (f : ρ → σ) (t : NamedType ρ) : Category.of (t.map f) = Category.of t := by
  obtain ⟨name, description, body⟩ := t
  cases body <;> rfl

/-! ## Objects -/

/-- The kinds of types that are objects. -/
def Kind.isObject : Kind → Bool
  | .object | .pageInfo | .batchPayload | .edge | .aggregate | .connection | .query | .mutation => true
  | _ => false

theorem isObject_of_define {g : TypeGraph} {r : Request} (hk : r.kind.isObject = true)
    {d : NamedType Handle} (hd : define g (fresh g) (.made r) = .ok d) : d.body.isObject = true := by
  have hkind : ∀ k : Kind, k.isObject = true → k.category = .object := by
    intro k hk
    cases k <;> first | rfl | cases hk
  have hcategory := (category_of_define hd).trans (hkind _ hk)
  unfold Category.of at hcategory
  cases hbody : d.body with
  | object => rfl
  | _ =>
    rw [hbody] at hcategory
    cases hcategory

/-- The fields of the query type: the queries of the models, and then the query for an item of any model. -/
def queriesOf (g : TypeGraph) : FieldMap (OutputField Handle) :=
  if g.models.any implementsNode then FieldMap.insert "node" nodeField (g.models.flatMap (promisedOf g))
  else g.models.flatMap (promisedOf g)

/-! ## What an object is made of -/

section Parts

variable {g : TypeGraph}

theorem mem_of_subject {r : Request} {t : ModelType}
    (hr : (ofExcept (subject g r) : Except Error ModelType) = .ok t) : t ∈ g.types ∧ t.name = r.subject := by
  rw [ofExcept_eq, subject] at hr
  cases hfind : g.find? r.subject with
  | none =>
    rw [hfind] at hr
    cases hr
  | some u =>
    rw [hfind] at hr
    obtain rfl := Except.ok.inj hr
    exact TypeGraph.mem_of_find? hfind

/-- Fields that are checked are fields as they are made. -/
theorem checkFieldNames_resolving {α : Type} {r : Request} {fields : Except Error (FieldMap α)}
    {made checked : FieldMap α} (hmade : resolving r fields = .ok made)
    (hchecked : (ofExcept (checkFieldNames made) : Except Error _) = .ok checked) : fields = .ok checked := by
  have hfields : fields = .ok made := by
    cases fields with
    | ok => exact hmade
    | error => cases hmade
  rw [ofExcept_eq, checkFieldNames] at hchecked
  split at hchecked
  · cases hchecked
  · rw [hfields, Except.ok.inj hchecked]

/-- The parts of an object are what the generator of each of them makes. -/
theorem outputs_of_define {ask : Ask (Except Error)} {r : Request} {d : NamedType Handle}
    (hd : define g ask (.made r) = .ok d) : outputFields g ask r = .ok d.body.outputFields ∧
      ∀ implemented fields, d.body = .object implemented fields → interfaces g ask r = .ok implemented := by
  obtain ⟨b, hb, hd⟩ := bind_eq_ok_iff.mp hd
  cases hd
  obtain ⟨kind, subject, args⟩ := r
  cases kind
  case scalar =>
    cases hb
    exact ⟨rfl, nofun⟩
  case enum | orderBy =>
    obtain ⟨_, _, hb⟩ := bind_eq_ok_iff.mp hb
    cases hb
    exact ⟨rfl, nofun⟩
  case node =>
    obtain ⟨_, hmade, hb⟩ := bind_eq_ok_iff.mp hb
    obtain ⟨_, hchecked, hb⟩ := bind_eq_ok_iff.mp hb
    cases hb
    exact ⟨checkFieldNames_resolving hmade hchecked, nofun⟩
  -- Objects look for what they implement first, whether they implement something or not.
  case object | pageInfo | batchPayload | edge | aggregate | connection | query | mutation =>
    obtain ⟨_, himplemented, hb⟩ := bind_eq_ok_iff.mp hb
    obtain ⟨_, hmade, hb⟩ := bind_eq_ok_iff.mp hb
    obtain ⟨_, hchecked, hb⟩ := bind_eq_ok_iff.mp hb
    cases hb
    refine ⟨checkFieldNames_resolving hmade hchecked, ?_⟩
    rintro _ _ ⟨⟩
    exact himplemented
  all_goals
    obtain ⟨_, _, hb⟩ := bind_eq_ok_iff.mp hb
    obtain ⟨_, _, hb⟩ := bind_eq_ok_iff.mp hb
    obtain ⟨_, _, hb⟩ := bind_eq_ok_iff.mp hb
    cases hb
    exact ⟨rfl, nofun⟩

end Parts

namespace Assembled

variable {g : TypeGraph} (h : WellFormed g.types) {s : Schema} (hs : Assembled g s)

include h hs

theorem exists_define {x : Handle} (hx : x.ReachedFrom g (schemaRoots g)) :
    ∃ d, define g (fresh g) x = .ok d ∧ d.name = x.name ∧ d.body.Sound (Handle.Valid g) :=
  define_eq_ok h hs.free (valid_of_reachedFrom h valid_schemaRoots hx)

omit h hs in
theorem reached_ownType {t : ModelType} (ht : t ∈ g.types) :
    (ownType t).ReachedFrom g (schemaRoots g) :=
  .root (List.mem_append_left _ (List.mem_map_of_mem ht))

omit h hs in
theorem reached_object {t : ModelType} (ht : t ∈ g.types) (henum : t.isEnum = false) :
    Handle.ReachedFrom g (schemaRoots g) (.made (.of .object t.name)) := by
  have hreached := reached_ownType ht
  rwa [ownType, henum] at hreached

theorem isObject_of_reached {r : Request} (hk : r.kind.isObject = true)
    (hr : Handle.ReachedFrom g (schemaRoots g) (.made r)) : s.isObject r.typeName = true := by
  obtain ⟨d, hd, _⟩ := hs.exists_define h hr
  have hfind : s.find? r.typeName = some (d.map Handle.name) := hs.find? (.made r) hr d hd
  have hobject := isObject_of_define hk hd
  rw [Schema.isObject, hfind, Option.any_some, NamedType.map]
  cases hbody : d.body with
  | object => rfl
  | _ =>
    rw [hbody] at hobject
    cases hobject

theorem isObject_model {t : ModelType} (ht : t ∈ g.models) : s.isObject t.name = true := by
  obtain ⟨hmem, hmodel⟩ := List.mem_filter.mp ht
  exact hs.isObject_of_reached h (r := .of .object t.name) rfl
    (reached_object hmem (ModelType.isEnum_of_isModel hmodel))

/-! ## Queries and mutations -/

theorem define_query : define g (fresh g) (.made (.shared .query)) =
    .ok { name := "Query", body := .object [] (queriesOf g) } :=
  (define_query_eq_ok_iff h).mpr (queryFields_fresh h fun t ht => hs.free t (List.mem_filter.mp ht).1)

theorem define_mutation : define g (fresh g) (.made (.shared .mutation)) =
    .ok { name := "Mutation", body := .object [] (g.models.flatMap (promisedMutations g)) } :=
  (define_mutation_eq_ok_iff h).mpr ⟨fun t ht => hs.free t (List.mem_filter.mp ht).1, rfl⟩

/-- Every model has a mutation of many items, and so there is an answer to it. -/
theorem isObject_batchPayload {t : ModelType} (ht : t ∈ g.models) : s.isObject "BatchPayload" = true := by
  refine hs.isObject_of_reached h (r := .shared .batchPayload) rfl ?_
  refine .ref (.root (root_mem_schemaRoots (.inr rfl) ht)) (hs.define_mutation h) ?_
  have hentry : ("deleteMany" ++ Naming.upperFirst (Naming.pluralName t.name),
      { type := .nonNull (.named (.made (.shared .batchPayload))), args := [filterOf t] }) ∈
        g.models.flatMap (promisedMutations g) :=
    List.mem_flatMap.mpr ⟨t, ht, List.mem_append_right _ (List.mem_singleton_self _)⟩
  exact mem_refs_of_mem hentry

/-! ## Root types -/

omit h in
/-- A root type of a schema, by the names of its types. There are none without models. -/
theorem root?_rootName {k : Kind} (hk : k = .query ∨ k = .mutation) {d : NamedType Handle}
    (hd : define g (fresh g) (.made (.shared k)) = .ok d) :
    s.root? (rootName g k) = if g.models.isEmpty then none else some (d.map Handle.name) := by
  rw [rootName]
  cases hempty : g.models.isEmpty with
  | true => rfl
  | false =>
    obtain ⟨t, ht⟩ := List.exists_mem_of_ne_nil _ (List.isEmpty_eq_false_iff.mp hempty)
    exact hs.find? _ (.root (root_mem_schemaRoots hk ht)) d hd

/-- The query type of a schema, by the names of its types. -/
theorem root?_query : s.root? s.query = if g.models.isEmpty then none else
    some (NamedType.map Handle.name { name := "Query", body := .object [] (queriesOf g) }) := by
  rw [hs.query]
  exact hs.root?_rootName (Or.inl rfl) (hs.define_query h)

/-- The mutation type of a schema, by the names of its types. -/
theorem root?_mutation : s.root? s.mutation = if g.models.isEmpty then none else
    some (NamedType.map Handle.name
      { name := "Mutation", body := .object [] (g.models.flatMap (promisedMutations g)) }) := by
  rw [hs.mutation]
  exact hs.root?_rootName (Or.inr rfl) (hs.define_mutation h)

end Assembled

/-! ## Sources with a schema -/

/-- That a source is accepted and that its datamodel has a schema of some kind, as far as it can be computed. -/
theorem exists_schema_of_any {database : Database} {source : List Char} {p : Schema → Prop} [DecidablePred p]
    (h : ((parse database source).toOption.any fun types =>
      (schema (.ofTypes types)).toOption.any fun s => p s) = true) :
    ∃ types s, parse database source = .ok types ∧ schema (.ofTypes types) = .ok s ∧ p s := by
  obtain ⟨types, hparse, h⟩ := exists_ok_of_any h
  obtain ⟨s, hs, hp⟩ := exists_ok_of_any h
  exact ⟨types, s, hparse, hs, of_decide_eq_true hp⟩

/-- That a source is accepted and that its datamodel has a schema, as far as it can be computed. -/
theorem exists_schema_of_isOk {database : Database} {source : List Char}
    (h : ((parse database source).toOption.any fun types => (schema (.ofTypes types)).isOk) = true) :
    ∃ types s, parse database source = .ok types ∧ schema (.ofTypes types) = .ok s := by
  obtain ⟨types, hparse, h⟩ := exists_ok_of_any h
  obtain ⟨s, hs⟩ := exists_eq_ok h
  exact ⟨types, s, hparse, hs⟩

end OpenCrud.Generate
