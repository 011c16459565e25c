import OpenCrud.Proofs.Generate.OutputParts

/-!
# Items that are found by their identifiers

Whether the items of a datamodel can be found by their identifiers is asked in three places: by the objects, which
list an interface, by the schema, which holds it, and by the query type, which has a field for such items. Main
result: the three agree, and every object that lists the interface has the field that it demands
(`nodeConsistent_of_parse`).

An object is made for the interface from what its type says of the identifier: called `id`, required, no list, and
of the scalar that identifiers have. So the field that is made of it is that of the interface.
-/

namespace OpenCrud.Generate

open Datamodel
open Client (Category)
open MonadExcept (ofExcept)

/-! ## What is asked -/

/-- The interfaces that an object lists. -/
def listedInterfaces {ρ : Type} (d : NamedType ρ) : List ρ :=
  match d.body with
  | .object interfaces _ => interfaces
  | _ => []

/-- That a schema has an interface for items that are found by their identifiers. -/
def DeclaresNode (s : Schema) : Prop := ∃ d ∈ s.allTypes, d.name = "Node" ∧ Category.of d = .interface

/-- That an object of a schema lists the interface. -/
def ImplementsNode (s : Schema) : Prop := ∃ d ∈ s.allTypes, "Node" ∈ listedInterfaces d

/-- That the query type of a schema has a field for such items. -/
def QueriesNode (s : Schema) : Prop :=
  ∃ query field, s.root? s.query = some query ∧ FieldMap.find? "node" query.body.outputFields = some field ∧
    field.type = .named "Node"

/-- That a schema is consistent about items that are found by their identifiers. -/
structure NodeConsistent (types : List ModelType) (s : Schema) : Prop where
  conforms : ∀ d ∈ s.allTypes, "Node" ∈ listedInterfaces d →
    ∃ field, FieldMap.find? "id" d.body.outputFields = some field ∧ field.type = .nonNull (.named "ID")
  declares_iff : DeclaresNode s ↔ ImplementsNode s
  queries_iff : QueriesNode s ↔ ImplementsNode s
  embedded : ∀ t ∈ types, t.isEmbedded = true → ∀ d ∈ s.allTypes, d.name = t.name → "Node" ∉ listedInterfaces d

theorem listedInterfaces_map {ρ σ : Type} (f : ρ → σ) (d : NamedType ρ) :
    listedInterfaces (d.map f) = (listedInterfaces d).map f := by
  obtain ⟨name, description, body⟩ := d
  cases body <;> rfl

theorem mem_refs_of_listedInterfaces {ρ : Type} {d : NamedType ρ} {y : ρ} (hy : y ∈ listedInterfaces d) :
    y ∈ d.body.refs := by
  unfold listedInterfaces at hy
  split at hy
  · rename_i hbody
    rw [hbody]
    exact List.mem_append_left _ hy
  · cases hy

/-- No type by which schemas describe themselves is an interface or lists one. -/
theorem introspection_plain : ∀ d ∈ Introspection.types, listedInterfaces d = [] ∧ Category.of d ≠ .interface := by
  decide

/-! ## Objects -/

section Objects

variable {g : TypeGraph} (h : WellFormed g.types)

include h

/-- An object that lists an interface is that of a model whose items are found by their identifiers. -/
theorem exists_implementer {r : Request} {d : NamedType Handle} (hd : define g (fresh g) (.made r) = .ok d)
    {y : Handle} (hy : y ∈ listedInterfaces d) : r.kind = .object ∧ y = .made (.shared .node) ∧
      ∃ t ∈ g.models, t.name = r.subject ∧ implementsNode t = true ∧
        objectFields g (fresh g) t = .ok d.body.outputFields := by
  obtain ⟨hfields, hinterfaces⟩ := outputs_of_define hd
  unfold listedInterfaces at hy
  split at hy
  · rename_i implemented fields hbody
    obtain ⟨hkind, hnode, t, ht, hsubject, himplements⟩ := exists_of_interfaces h (hinterfaces _ _ hbody) hy
    refine ⟨hkind, hnode, t, ht, (mem_of_subject ((ofExcept_eq _).trans hsubject)).2, himplements, ?_⟩
    rw [outputFields, hkind] at hfields
    dsimp only at hfields
    rwa [hsubject, ofExcept_eq, ok_bind] at hfields
  · cases hy

/-- The object of such a model lists the interface. -/
theorem listedInterfaces_of_implementsNode {t : ModelType} (ht : t ∈ g.types) (hnode : implementsNode t = true)
    {d : NamedType Handle} (hd : define g (fresh g) (.made (.of .object t.name)) = .ok d) :
    listedInterfaces d = [.made (.shared .node)] := by
  have hmade : interfaces g (fresh g) (.of .object t.name) = .ok [.made (.shared .node)] := by
    show ofExcept (subject g (.of .object t.name)) >>= objectInterfaces (fresh g) = _
    rw [subject_eq h ht rfl, ofExcept_eq, ok_bind, objectInterfaces, if_pos hnode, Ask.type, fresh_shared h rfl]
    rfl
  obtain ⟨implemented, fields, _, rfl⟩ := exists_of_define_object h ht hd
  exact Except.ok.inj (((outputs_of_define hd).2 _ _ rfl).symm.trans hmade)

/-- What is called like the scalar of identifiers is a leaf, since no type of the datamodel can be called so. -/
theorem isLeafOf_of_typeName_id {t : ModelType} (ht : t ∈ g.types) {f : ModelField} (hf : f ∈ t.fields)
    (htype : f.typeName = Scalar.id.name) : isLeafOf g f = true := by
  rcases target_of_mem h ht hf with ⟨_, _, htarget⟩ | ⟨_, _, _, _, htarget⟩ | ⟨u, hu, hname, _⟩
  · rw [isLeafOf, htarget]
    rfl
  · rw [isLeafOf, htarget]
    rfl
  · have hscalar := (h.type u hu).not_scalar
    rw [← hname, htype] at hscalar
    exact absurd hscalar (by decide)

/-- The identifier of such items is shown as the interface demands. -/
theorem exists_idField (hfree : ∀ t ∈ g.types, t.name ∉ introspectionNames) {t : ModelType} (ht : t ∈ g.types)
    (hnode : implementsNode t = true) {fields : FieldMap (OutputField Handle)}
    (hfields : objectFields g (fresh g) t = .ok fields) :
    ∃ field, FieldMap.find? "id" fields = some field ∧ field.type.map Handle.name = .nonNull (.named "ID") := by
  rw [implementsNode, Bool.and_eq_true] at hnode
  obtain ⟨f, hid, hfnode⟩ := (Option.any_eq_true _ _).mp hnode.2
  have hf : f ∈ t.fields := List.mem_of_find?_eq_some hid
  simp only [isNodeId, Bool.and_eq_true, decide_eq_true_eq, Bool.not_eq_true'] at hfnode
  obtain ⟨⟨⟨hname, htype⟩, hrequired⟩, hlist⟩ := hfnode
  obtain ⟨x, hx, hentry⟩ := objectField_leaf h hfree ht hf (isLeafOf_of_typeName_id h ht hf htype)
  have hmade := (objectFields_eq_ok_iff h ht).mp hfields
  obtain ⟨entry, hmem, hentry'⟩ := exists_of_forall₂ (mapM_eq_ok_iff_forall₂.mp hmade).flip hf
  obtain rfl := Except.ok.inj (hentry'.symm.trans hentry)
  have hkeys : fields.map Prod.fst = t.fields.map (·.name) :=
    map_of_mapM_eq_ok hmade fun _ _ _ hentry => name_of_objectField hentry
  refine ⟨_, (FieldMap.lookup_eq_some_iff (hkeys ▸ (h.type t ht).nodup_fields)).mpr (hname ▸ hmem), ?_⟩
  have hxname : x.name = "ID" := hx.trans htype
  rw [hrequired, hlist]
  exact congrArg (fun n => TypeExpr.nonNull (.named n)) hxname

end Objects

/-! ## Three places -/

section Schema

variable {g : TypeGraph} (h : WellFormed g.types) {s : Schema} (hs : Assembled g s)

include h hs

/-- A type that lists the interface is the object of a model whose items are found by their identifiers. -/
theorem exists_model_of_listed {d : NamedType String} (hd : d ∈ s.allTypes) (hnode : "Node" ∈ listedInterfaces d) :
    ∃ t ∈ g.models, t.name = d.name ∧ implementsNode t = true ∧
      ∃ fields, objectFields g (fresh g) t = .ok fields ∧ d.body.outputFields = fields.map byName := by
  rcases List.mem_append.mp hd with hd | hd
  · obtain ⟨x, hx, d', hd', rfl⟩ := (hs.types d).mp hd
    rw [listedInterfaces_map] at hnode
    obtain ⟨y, hy, _⟩ := List.mem_map.mp hnode
    cases x with
    | made r =>
      obtain ⟨hkind, _, t, ht, hsubject, himplements, hfields⟩ := exists_implementer h hd' hy
      obtain ⟨made, hmade, hname, _⟩ := hs.exists_define h hx
      obtain rfl := Except.ok.inj (hmade.symm.trans hd')
      have htypeName : r.typeName = r.subject := by rw [Request.typeName, hkind]
      exact ⟨t, ht, hsubject.trans (htypeName.symm.trans hname.symm), himplements, _, hfields,
        outputFields_map made.body⟩
    | _ =>
      cases hd'
      cases hy
  · rw [(introspection_plain d hd).1] at hnode
    cases hnode

/-- The object of a model with such items is reached, and it lists the interface. -/
theorem exists_object {t : ModelType} (ht : t ∈ g.models) (hnode : implementsNode t = true) :
    ∃ d, Handle.ReachedFrom g (schemaRoots g) (.made (.of .object t.name)) ∧
      define g (fresh g) (.made (.of .object t.name)) = .ok d ∧ listedInterfaces d = [.made (.shared .node)] := by
  obtain ⟨hmem, hmodel⟩ := List.mem_filter.mp ht
  have hobject := Assembled.reached_object hmem (ModelType.isEnum_of_isModel hmodel)
  obtain ⟨d, hd, _⟩ := hs.exists_define h hobject
  exact ⟨d, hobject, hd, listedInterfaces_of_implementsNode h hmem hnode hd⟩

/-- The interface is reached exactly where a model has such items. -/
theorem reached_node_iff : Handle.ReachedFrom g (schemaRoots g) (.made (.shared .node)) ↔
    g.models.any implementsNode = true := by
  constructor
  · intro hx
    cases hx with
    | root hx =>
      rcases List.mem_append.mp hx with hx | hx
      · obtain ⟨t, _, ht⟩ := List.mem_map.mp hx
        unfold ownType at ht
        split at ht <;> cases ht
      · rcases List.mem_append.mp hx with hx | hx
        · split at hx
          · cases hx
          · exact absurd hx (by decide)
        · exact absurd hx (by decide)
    | @ref x _ d _ hd hy =>
      cases x with
      | made r => exact (refers_of_define h hd _ hy).any_implementsNode
      | _ =>
        cases hd
        cases hy
  · intro hany
    obtain ⟨t, ht, hnode⟩ := List.any_eq_true.mp hany
    obtain ⟨d, hobject, hd, hlisted⟩ := exists_object h hs ht hnode
    refine .ref hobject hd (mem_refs_of_listedInterfaces ?_)
    rw [hlisted]
    exact List.mem_singleton_self _

theorem implementsNode_iff : ImplementsNode s ↔ g.models.any implementsNode = true := by
  rw [List.any_eq_true]
  constructor
  · rintro ⟨d, hd, hnode⟩
    obtain ⟨t, ht, _, himplements, _⟩ := exists_model_of_listed h hs hd hnode
    exact ⟨t, ht, himplements⟩
  · rintro ⟨t, ht, himplements⟩
    obtain ⟨d, hobject, hd, hlisted⟩ := exists_object h hs ht himplements
    refine ⟨d.map Handle.name, List.mem_append_left _ ((hs.types _).mpr ⟨_, hobject, d, hd, rfl⟩), ?_⟩
    rw [listedInterfaces_map, hlisted]
    exact List.mem_singleton_self _

/-- Nothing but the interface is called like it. -/
theorem declaresNode_iff : DeclaresNode s ↔ g.models.any implementsNode = true := by
  rw [← reached_node_iff h hs]
  constructor
  · rintro ⟨d, hd, hname, hcategory⟩
    rcases List.mem_append.mp hd with hd | hd
    · obtain ⟨x, hx, d', hd', rfl⟩ := (hs.types d).mp hd
      obtain ⟨made, hmade, hmadeName, _⟩ := hs.exists_define h hx
      obtain rfl := Except.ok.inj (hmade.symm.trans hd')
      have hxname : Handle.name (.made (.shared .node)) = x.name := (hmadeName.symm.trans hname).symm
      rwa [eq_of_common h (mem_commonTypes_shared (k := .node) rfl)
        (valid_of_reachedFrom h valid_schemaRoots hx) hxname]
    · exact absurd hcategory (introspection_plain d hd).2
  · intro hx
    obtain ⟨d, hd, hname, _⟩ := hs.exists_define h hx
    refine ⟨d.map Handle.name, List.mem_append_left _ ((hs.types _).mpr ⟨_, hx, d, hd, rfl⟩), hname, ?_⟩
    rw [category_map]
    exact category_of_define hd

omit hs in
/-- A query that is called `node` and gives the interface is the one for an item of any model. -/
theorem type_ne_node {field : OutputField Handle} (hfield : ("node", field) ∈ g.models.flatMap (promisedOf g)) :
    field.type.map Handle.name ≠ .named "Node" := by
  obtain ⟨t, ht, hfield⟩ := List.mem_flatMap.mp hfield
  have hreserved := (h.type t (List.mem_filter.mp ht).1).not_reserved
  simp only [promisedOf, List.mem_append, List.mem_singleton] at hfield
  intro htype
  rcases hfield with (heq | hfield) | heq
  · obtain ⟨_, rfl⟩ := Prod.mk.inj heq
    cases htype
  · split at hfield
    · obtain ⟨_, rfl⟩ := Prod.mk.inj (List.mem_singleton.mp hfield)
      have hname : t.name = "Node" := TypeExpr.named.inj htype
      exact hreserved (hname ▸ by decide)
    · cases hfield
  · obtain ⟨_, rfl⟩ := Prod.mk.inj heq
    cases htype

theorem queriesNode_iff : QueriesNode s ↔ g.models.any implementsNode = true := by
  have hfind : FieldMap.find? "node" (TypeBody.map Handle.name (.object [] (queriesOf g))).outputFields =
      (FieldMap.find? "node" (queriesOf g)).map (OutputField.map Handle.name) :=
    FieldMap.find?_map "node" (OutputField.map Handle.name) (queriesOf g)
  constructor
  · rintro ⟨query, field, hquery, hfield, htype⟩
    rw [hs.root?_query h] at hquery
    split at hquery
    · cases hquery
    obtain rfl := Option.some.inj hquery
    obtain ⟨made, hmade, rfl⟩ := Option.map_eq_some_iff.mp (hfind.symm.trans hfield)
    by_contra hnone
    rw [queriesOf, if_neg hnone, FieldMap.find?, FieldMap.lookup_eq_some_iff (nodup_keys_models h)] at hmade
    exact type_ne_node h hmade htype
  · intro hany
    obtain ⟨t, ht, _⟩ := List.any_eq_true.mp hany
    have hmodels : ¬g.models.isEmpty = true := fun hempty =>
      List.ne_nil_of_mem ht (List.isEmpty_iff.mp hempty)
    refine ⟨_, nodeField.map Handle.name, (hs.root?_query h).trans (if_neg hmodels), hfind.trans ?_, rfl⟩
    rw [queriesOf, if_pos hany, FieldMap.find?_insert, if_pos rfl]
    rfl

end Schema

/-! ## Main result -/

/-- A schema of an accepted datamodel is consistent about items that are found by their identifiers. -/
theorem nodeConsistent_of_parse {database : Database} {source : List Char} {types : List ModelType}
    (h : parse database source = .ok types) {s : Schema} (hs : schema (.ofTypes types) = .ok s) :
    NodeConsistent types s := by
  have hnodup := (wellFormed_of_parse h).nodup_names
  have hwf := (wellFormed_of_parse h).ofTypes
  have htypes := TypeGraph.types_ofTypes hnodup
  rw [schema_eq_assemble] at hs
  have hassembled := assembled_of_eq_ok hwf hs
  have himplements := implementsNode_iff hwf hassembled
  refine ⟨fun d hd hnode => ?_, (declaresNode_iff hwf hassembled).trans himplements.symm,
    (queriesNode_iff hwf hassembled).trans himplements.symm, fun t ht hembedded d hd hname hnode => ?_⟩
  · obtain ⟨t, ht, _, hnode, fields, hfields, hshown⟩ := exists_model_of_listed hwf hassembled hd hnode
    obtain ⟨field, hfield, htype⟩ :=
      exists_idField hwf hassembled.free (List.mem_filter.mp ht).1 hnode hfields
    refine ⟨field.map Handle.name, ?_, htype⟩
    rw [hshown]
    exact (FieldMap.find?_map "id" (OutputField.map Handle.name) _).trans (congrArg _ hfield)
  · obtain ⟨u, hu, hsame, _⟩ := exists_model_of_listed hwf hassembled hd hnode
    rw [TypeGraph.models_ofTypes hnodup] at hu
    obtain ⟨hu, hmodel⟩ := List.mem_filter.mp hu
    obtain rfl := List.inj_on_of_nodup_map hnodup hu ht (hsame.trans hname)
    rw [ModelType.isModel, hembedded, Bool.not_true, Bool.and_false] at hmodel
    cases hmodel

/-- A datamodel in which only one of three types has items that are found by their identifiers: an optional
identifier does not count, and neither does that of an embedded type. -/
def identifiersSource : List Char :=
  "type User { id: ID! @id at: Place } type Visit { id: ID @id } type Place @embedded { id: ID! @id }".toList

theorem nodeConsistent_identifiers : ∃ types s, parse .document identifiersSource = .ok types ∧
    schema (.ofTypes types) = .ok s ∧ NodeConsistent types s := by
  obtain ⟨types, s, hparse, hs⟩ : ∃ types s, parse .document identifiersSource = .ok types ∧
      schema (.ofTypes types) = .ok s :=
    exists_schema_of_isOk (by decide +kernel)
  exact ⟨types, s, hparse, hs, nodeConsistent_of_parse hparse hs⟩

end OpenCrud.Generate
