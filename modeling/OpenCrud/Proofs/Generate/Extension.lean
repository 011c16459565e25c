import OpenCrud.Proofs.Generate.Assembled
import OpenCrud.Proofs.Generate.Locality

/-!
# Schemas of larger datamodels

The schema of a larger datamodel holds the types of the smaller one's schema as they are, the root types apart.
What a type refers to is the same in both graphs, so what is reached in the smaller one is reached in the larger
one; only the root types are others. Mutations are only added to. Of the queries one can be lost: the query for an
item of any model takes the place of the query for one `node`, whose input is then still reached as that of a
mutation. Main result: `find?_of_ofDocument`.
-/

namespace OpenCrud.Generate

open Datamodel

/-! ## Roots of the larger graph -/

section Extends

variable {g g' : TypeGraph} (h : g.Extends g')

include h

theorem schemaRoots_subset : schemaRoots g ⊆ schemaRoots g' := by
  refine List.append_subset.mpr ⟨fun x hx => ?_, fun x hx => ?_⟩
  · obtain ⟨t, ht, rfl⟩ := List.mem_map.mp hx
    exact List.mem_append_left _ (List.mem_map_of_mem (h.subset ht))
  · refine List.mem_append_right _ ?_
    rcases List.mem_append.mp hx with hx | hx
    · cases hmodels : g.models with
      | nil =>
        rw [hmodels] at hx
        cases hx
      | cons t rest =>
        have ht : t ∈ g'.models := h.mem_models (hmodels ▸ List.mem_cons_self)
        rw [if_neg (by simp [hmodels])] at hx
        exact List.mem_append_left _ (by rwa [if_neg (by simp [List.ne_nil_of_mem ht])])
    · exact List.mem_append_right _ hx

/-! ## Root fields of the larger graph -/

theorem isLeafOf_same {t : ModelType} (ht : t ∈ g.types) {f : ModelField} (hf : f ∈ t.fields) :
    isLeafOf g' f = isLeafOf g f := by
  rw [isLeafOf, isLeafOf, target_same (h.relatedType? ht hf)]

theorem any_isLeafOf_same {t : ModelType} (ht : t ∈ g.types) (p : ModelField → Bool) :
    (t.fields.any fun f => p f && isLeafOf g' f) = t.fields.any fun f => p f && isLeafOf g f := by
  rw [Bool.eq_iff_iff, List.any_eq_true, List.any_eq_true]
  exact exists_congr fun f => and_congr_right fun hf => by rw [isLeafOf_same h ht hf]

theorem promisedOf_same {t : ModelType} (ht : t ∈ g.models) : promisedOf g' t = promisedOf g t := by
  have hmem := (List.mem_filter.mp ht).1
  have hargs : listArgs g' t = listArgs g t := by
    rw [listArgs, listArgs, isOrderable, isOrderable, any_isLeafOf_same h hmem]
  rw [promisedOf, promisedOf, hasUniqueLeaf, hasUniqueLeaf, any_isLeafOf_same h hmem, hargs]

theorem promisedMutations_same {t : ModelType} (ht : t ∈ g.models) :
    promisedMutations g' t = promisedMutations g t := by
  have hmem := (List.mem_filter.mp ht).1
  rw [promisedMutations, promisedMutations, hasUniqueLeaf, hasUniqueLeaf, hasWritableLeaf, hasWritableLeaf,
    any_isLeafOf_same h hmem, any_isLeafOf_same h hmem]

/-! ## References of the root types -/

variable (hfree : ∀ t ∈ g'.types, t.name ∉ introspectionNames)

include hfree

/-- What the mutations of a model refer to is reached in the larger graph. -/
theorem reached_of_mem_promisedMutations {t : ModelType} (ht : t ∈ g.models)
    {entry : String × OutputField Handle} (hentry : entry ∈ promisedMutations g t) {y : Handle}
    (hy : y ∈ entry.2.refs) : y.ReachedFrom g' (schemaRoots g') := by
  have ht' := h.mem_models ht
  have hdefine : define g' (fresh g') (.made (.shared .mutation)) = .ok
      { name := "Mutation", body := .object [] (g'.models.flatMap (promisedMutations g')) } :=
    (define_mutation_eq_ok_iff h.large).mpr ⟨fun t ht => hfree t (List.mem_filter.mp ht).1, rfl⟩
  have hmem : entry ∈ g'.models.flatMap (promisedMutations g') :=
    List.mem_flatMap.mpr ⟨t, ht', (promisedMutations_same h ht).symm ▸ hentry⟩
  exact .ref (.root (root_mem_schemaRoots (.inr rfl) ht')) hdefine (List.mem_flatMap.mpr ⟨entry, hmem, hy⟩)

/-- What the queries of a model refer to is reached in the larger graph. -/
theorem reached_of_mem_promisedOf {t : ModelType} (ht : t ∈ g.models) {entry : String × OutputField Handle}
    (hentry : entry ∈ promisedOf g t) {y : Handle} (hy : y ∈ entry.2.refs) :
    y.ReachedFrom g' (schemaRoots g') := by
  have hkept : entry.1 ≠ "node" → y.ReachedFrom g' (schemaRoots g') := fun hne =>
    reached_of_promisedOf h.large hfree (h.mem_models ht) ((promisedOf_same h ht).symm ▸ hentry) hne hy
  have hw := h.small.type t (List.mem_filter.mp ht).1
  rcases List.mem_append.mp hentry with hentry | hentry
  · rcases List.mem_append.mp hentry with hentry | hentry
    · obtain rfl := List.mem_singleton.mp hentry
      exact hkept (manyQueryName_ne_node hw.isName_name)
    · -- The query for one item can be lost; the mutation that deletes one refers to the same types.
      split at hentry
      · rename_i hunique
        obtain rfl := List.mem_singleton.mp hentry
        have hdelete : ("delete" ++ t.name,
            { type := .named (.made (.of .object t.name)), args := [inputOf t "where" .whereUnique] }) ∈
              promisedMutations g t := by
          refine List.mem_append_left _ (List.mem_append_right _ ?_)
          rw [if_pos hunique]
          exact List.mem_singleton_self _
        exact reached_of_mem_promisedMutations h hfree ht hdelete hy
      · cases hentry
  · obtain rfl := List.mem_singleton.mp hentry
    exact hkept connectionQueryName_ne_node

/-- What the query for an item of any model refers to is reached in the larger graph. -/
theorem reached_of_nodeField (hnode : g.models.any implementsNode = true) {y : Handle}
    (hy : y ∈ nodeField.refs) : y.ReachedFrom g' (schemaRoots g') := by
  obtain ⟨t, ht, himplements⟩ := List.any_eq_true.mp hnode
  have ht' := h.mem_models ht
  have hqueries := queryFields_fresh h.large fun t ht => hfree t (List.mem_filter.mp ht).1
  rw [if_pos (List.any_eq_true.mpr ⟨t, ht', himplements⟩)] at hqueries
  refine .ref (.root (root_mem_schemaRoots (.inl rfl) ht')) ((define_query_eq_ok_iff h.large).mpr hqueries) ?_
  exact List.mem_flatMap.mpr ⟨("node", nodeField), FieldMap.mem_insert_self, hy⟩

/-- What the mutation type refers to is reached in the larger graph. -/
theorem reached_of_define_mutation {d : NamedType Handle}
    (hd : define g (fresh g) (.made (.shared .mutation)) = .ok d) {y : Handle} (hy : y ∈ d.body.refs) :
    y.ReachedFrom g' (schemaRoots g') := by
  obtain ⟨_, rfl⟩ := (define_mutation_eq_ok_iff h.small).mp hd
  obtain ⟨entry, hentry, hy⟩ := List.mem_flatMap.mp hy
  obtain ⟨t, ht, hentry⟩ := List.mem_flatMap.mp hentry
  exact reached_of_mem_promisedMutations h hfree ht hentry hy

variable (hfree' : ∀ t ∈ g.types, t.name ∉ introspectionNames)

include hfree'

/-- What the query type refers to is reached in the larger graph. -/
theorem reached_of_define_query {d : NamedType Handle}
    (hd : define g (fresh g) (.made (.shared .query)) = .ok d) {y : Handle} (hy : y ∈ d.body.refs) :
    y.ReachedFrom g' (schemaRoots g') := by
  have hqueries := queryFields_fresh h.small fun t ht => hfree' t (List.mem_filter.mp ht).1
  cases hd.symm.trans ((define_query_eq_ok_iff h.small).mpr hqueries)
  obtain ⟨entry, hentry, hy⟩ := List.mem_flatMap.mp hy
  have hmodels : entry ∈ g.models.flatMap (promisedOf g) → y.ReachedFrom g' (schemaRoots g') := by
    intro hentry
    obtain ⟨t, ht, hentry⟩ := List.mem_flatMap.mp hentry
    exact reached_of_mem_promisedOf h hfree ht hentry hy
  split at hentry
  · rename_i hnode
    rcases FieldMap.mem_of_mem_insert hentry with rfl | hentry
    · exact reached_of_nodeField h hfree hnode hy
    · exact hmodels hentry
  · exact hmodels hentry

/-- What is reached in the smaller graph is reached in the larger one. -/
theorem reachedFrom_of_extends {x : Handle} (hx : x.ReachedFrom g (schemaRoots g)) :
    x.ReachedFrom g' (schemaRoots g') := by
  induction hx with
  | root hx => exact .root (schemaRoots_subset h hx)
  | @ref x y d hx hd hy ih =>
    -- The root types are others in the larger graph. Any other type refers to the same types there.
    by_cases hquery : x = .made (.shared .query)
    · subst hquery
      exact reached_of_define_query h hfree hfree' hd hy
    · by_cases hmutation : x = .made (.shared .mutation)
      · subst hmutation
        exact reached_of_define_mutation h hfree hd hy
      · have hvalid := valid_of_reachedFrom h.small valid_schemaRoots hx
        exact .ref ih ((define_same h hvalid hquery hmutation).trans hd) hy

end Extends

/-! ## Main result -/

/-- The types by which schemas describe themselves are found under their names. -/
theorem Assembled.find?_introspection {g : TypeGraph} (h : WellFormed g.types) {s : Schema} (hs : Assembled g s)
    {t : NamedType String} (ht : t ∈ Introspection.types) : s.find? t.name = some t := by
  have hnodup : (Introspection.types.map (·.name)).Nodup := by decide
  have hname : t.name ∈ introspectionNames := Introspection.map_name_types ▸ List.mem_map_of_mem ht
  have hown : s.types.find? (·.name = t.name) = none := by
    refine List.find?_eq_none.mpr fun u hu hc => ?_
    obtain ⟨x, hx, d, hd, rfl⟩ := (hs.types u).mp hu
    obtain ⟨d', hd', hdname, _⟩ := hs.exists_define h hx
    obtain rfl : d = d' := Except.ok.inj (hd.symm.trans hd')
    have hxname : x.name = t.name := hdname.symm.trans (of_decide_eq_true hc)
    exact name_not_mem_introspectionNames hs.free (valid_of_reachedFrom h valid_schemaRoots hx) (hxname ▸ hname)
  rw [Schema.find?, Schema.allTypes, List.find?_append, hown, Option.none_or]
  exact find?_name_of_mem hnodup ht

/-- The schema of a larger graph has the types of the smaller graph's schema under their names, the root types
apart. -/
theorem Assembled.find?_of_extends {g g' : TypeGraph} (h : g.Extends g') {s s' : Schema} (hs : Assembled g s)
    (hs' : Assembled g' s') {t : NamedType String} (ht : t ∈ s.allTypes) (hquery : t.name ≠ "Query")
    (hmutation : t.name ≠ "Mutation") : s'.find? t.name = some t := by
  rcases List.mem_append.mp ht with ht | ht
  · obtain ⟨x, hx, d, hd, rfl⟩ := (hs.types t).mp ht
    obtain ⟨d', hd', hname, _⟩ := hs.exists_define h.small hx
    obtain rfl : d = d' := Except.ok.inj (hd.symm.trans hd')
    have hvalid := valid_of_reachedFrom h.small valid_schemaRoots hx
    have hsame : define g' (fresh g') x = define g (fresh g) x := by
      refine define_same h hvalid ?_ ?_
      · rintro rfl
        exact hquery hname
      · rintro rfl
        exact hmutation hname
    have hfind := hs'.find? x (reachedFrom_of_extends h hs'.free hs.free hx) d (hsame.trans hd)
    rwa [← hname] at hfind
  · exact hs'.find?_introspection h.large ht

theorem extends_of_ofDocument {database : Database} {document document' : Sdl.Document}
    {types types' : List ModelType} (h : ofDocument database document = .ok types)
    (h' : ofDocument database document' = .ok types')
    (hsubset : document.map (·.unplaced) ⊆ document'.map (·.unplaced)) :
    (TypeGraph.ofTypes types).Extends (.ofTypes types') where
  small := (wellFormed_of_ofDocument h).ofTypes
  large := (wellFormed_of_ofDocument h').ofTypes
  subset := by
    rw [TypeGraph.types_ofTypes (wellFormed_of_ofDocument h).nodup_names,
      TypeGraph.types_ofTypes (wellFormed_of_ofDocument h').nodup_names]
    exact subset_of_ofDocument h h' hsubset

/-- A document with more definitions, in whatever order and wherever they stand, leaves every type of the schema
but the root types as it is: the schema of the larger document has the same type under the same name. -/
theorem find?_of_ofDocument {database : Database} {document document' : Sdl.Document}
    {types types' : List ModelType} {s s' : Schema} (h : ofDocument database document = .ok types)
    (h' : ofDocument database document' = .ok types') (hs : schema (.ofTypes types) = .ok s)
    (hs' : schema (.ofTypes types') = .ok s')
    (hsubset : document.map (·.unplaced) ⊆ document'.map (·.unplaced)) :
    ∀ t ∈ s.allTypes, t.name ≠ "Query" → t.name ≠ "Mutation" → s'.find? t.name = some t := by
  have hextends := extends_of_ofDocument h h' hsubset
  rw [schema_eq_assemble] at hs hs'
  intro t ht hquery hmutation
  exact (assembled_of_eq_ok hextends.small hs).find?_of_extends hextends
    (assembled_of_eq_ok hextends.large hs') ht hquery hmutation

/-- A model alone, and the same model after an enum. -/
theorem find?_of_account : ∃ types types' s s',
    ofDocument .document [accountDefinition []] = .ok types ∧
    ofDocument .document [tierDefinition, accountDefinition ['@']] = .ok types' ∧
    schema (.ofTypes types) = .ok s ∧ schema (.ofTypes types') = .ok s' ∧
    [accountDefinition []].map (·.unplaced) ⊆ [tierDefinition, accountDefinition ['@']].map (·.unplaced) ∧
    ∀ t ∈ s.allTypes, t.name ≠ "Query" → t.name ≠ "Mutation" → s'.find? t.name = some t := by
  obtain ⟨types, h, hok⟩ : ∃ types, ofDocument .document [accountDefinition []] = .ok types ∧
      (schema (.ofTypes types)).isOk = true := exists_ok_of_any (by decide +kernel)
  obtain ⟨types', h', hok'⟩ : ∃ types',
      ofDocument .document [tierDefinition, accountDefinition ['@']] = .ok types' ∧
        (schema (.ofTypes types')).isOk = true := exists_ok_of_any (by decide +kernel)
  obtain ⟨s, hs⟩ := exists_eq_ok hok
  obtain ⟨s', hs'⟩ := exists_eq_ok hok'
  have hsubset : [accountDefinition []].map (·.unplaced) ⊆
      [tierDefinition, accountDefinition ['@']].map (·.unplaced) :=
    List.cons_subset.mpr ⟨List.mem_cons_of_mem _ (List.mem_singleton.mpr rfl), List.nil_subset _⟩
  exact ⟨types, types', s, s', h, h', hs, hs', hsubset, find?_of_ofDocument h h' hs hs' hsubset⟩

end OpenCrud.Generate
