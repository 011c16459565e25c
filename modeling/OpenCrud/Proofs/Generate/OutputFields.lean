import OpenCrud.Proofs.Generate.References
import OpenCrud.Proofs.Generate.RootName

/-!
# The fields of objects are sound

Every generator of output fields has one lemma below, for the objects of the datamodel, for their pages and for
the root types. A field may take an input as an argument only where there is one; what the fields answer is always
there, unless its name is taken. Main results: `yields_objectFields`, `yields_queryFields` and `yields_allMutations`.
-/

namespace OpenCrud.Generate

open Datamodel
open MonadExcept (ofExcept)

section Fields

variable {g : TypeGraph} (h : WellFormed g.types)

include h

section OfType

variable {t : ModelType} (ht : t ∈ g.types)

include ht

/-! ## Objects -/

omit h ht in
/-- An argument for an input that may be missing. -/
theorem sound_argIfMade {name : String} (hname : isName name.toList = true) {made : Option Handle}
    (hmade : ∀ x ∈ made, x.Valid g) :
    (argIfMade name made).Sound (InputField.Sound (Handle.Valid g)) := by
  cases made with
  | none => exact FieldMap.sound_nil
  | some x => exact FieldMap.sound_cons.mpr ⟨⟨hname, hmade x rfl⟩, FieldMap.sound_nil⟩

omit h ht in
theorem sound_pageArgs : pageArgs.Sound (InputField.Sound (Handle.Valid g)) := by
  intro entry hentry
  have hnames : ∀ entry ∈ pageArgs, isName entry.1.toList = true := by decide
  refine ⟨hnames entry hentry, ?_⟩
  simp only [pageArgs, List.mem_cons, List.not_mem_nil, or_false] at hentry
  rcases hentry with rfl | rfl | rfl | rfl | rfl <;> exact sound_scalarType _

/-- The arguments of a field with many items: a filter, an order where there is one, and those of pages. -/
theorem yields_manyArgs (henum : t.isEnum = false) :
    Yields g (FieldMap.Sound (InputField.Sound (Handle.Valid g))) (manyArgs (fresh g) t.name) := by
  refine (yields_input h ht henum (by decide : ("WhereInput", .whereInput, .none) ∈ endings) rfl).bind
    fun filter hfilter => ?_
  refine (yields_orderBy h ht henum).bind fun order horder => yields_ok ?_
  rw [FieldMap.sound_append, FieldMap.sound_append]
  exact ⟨⟨sound_argIfMade (by decide) hfilter, sound_argIfMade (by decide) horder⟩, sound_pageArgs⟩

/-- The field of an object for a field of its type. A relation leads to the object of the other type, which is there
whatever that type offers. -/
theorem yields_objectField {f : ModelField} (hf : f ∈ t.fields) :
    Yields g (fun entry => isName entry.1.toList = true ∧ entry.2.Sound (Handle.Valid g))
      (objectField g (fresh g) f) := by
  have hname := ((h.type t ht).field f hf).isName_name
  unfold objectField
  rw [ofExcept_eq]
  cases hleaf : isLeafOf g f with
  | true =>
    have houtput := yields_outputType h ht hf hleaf
    rcases target_of_isLeafOf hleaf with ⟨s, htarget⟩ | ⟨u, htarget⟩
    · rw [htarget]
      exact houtput.bind fun e he => yields_ok ⟨hname, he, FieldMap.sound_nil⟩
    · rw [htarget]
      exact houtput.bind fun e he => yields_ok ⟨hname, he, FieldMap.sound_nil⟩
  | false =>
    obtain ⟨u, hu, henum, _, htarget⟩ := target_of_isLeafOf_eq_false h ht hf hleaf
    rw [htarget]
    refine (yields_type (yields_object h hu henum)).bind fun x hx => ?_
    have htype : (withModifiers f (.named x)).Sound (Handle.Valid g) := by
      unfold withModifiers
      split
      · exact ⟨rfl, hx⟩
      · exact sound_requiredIf hx rfl
    dsimp only
    split
    · exact (yields_manyArgs h hu henum).bind fun args hargs => yields_ok ⟨hname, htype, hargs⟩
    · exact yields_ok ⟨hname, htype, FieldMap.sound_nil⟩

theorem yields_objectFields :
    Yields g (FieldMap.Sound (OutputField.Sound (Handle.Valid g))) (objectFields g (fresh g) t) := by
  refine (Yields.mapM fun f hf => yields_objectField h ht hf).bind fun entries hentries => ?_
  exact yields_ok (FieldMap.Sound.ofEntries hentries)

omit ht in
/-- What is found by its identifier has the interface for that. -/
theorem yields_objectInterfaces (t : ModelType) :
    Yields g (fun interfaces => ∀ x ∈ interfaces, x.Valid g) (objectInterfaces (fresh g) t) := by
  unfold objectInterfaces
  split
  · refine (yields_shared h (k := .node) rfl).bind fun x hx => yields_ok ?_
    exact List.forall_mem_singleton.mpr hx
  · exact yields_ok nofun

/-! ## Pages -/

omit h ht in
theorem sound_field {name : String} (hname : isName name.toList = true) {field : OutputField Handle}
    {rest : FieldMap (OutputField Handle)} (htype : field.type.Sound (Handle.Valid g))
    (hargs : field.args.Sound (InputField.Sound (Handle.Valid g)))
    (hrest : rest.Sound (OutputField.Sound (Handle.Valid g))) :
    FieldMap.Sound (OutputField.Sound (Handle.Valid g)) ((name, field) :: rest) :=
  FieldMap.sound_cons.mpr ⟨⟨hname, htype, hargs⟩, hrest⟩

omit h ht in
theorem sound_nodeFields : nodeFields.Sound (OutputField.Sound (Handle.Valid g)) :=
  sound_field (by decide) (sound_nonNull (.scalar .id)) FieldMap.sound_nil FieldMap.sound_nil

omit h ht in
theorem sound_pageInfoFields : pageInfoFields.Sound (OutputField.Sound (Handle.Valid g)) := by
  refine sound_field (by decide) (sound_nonNull (.scalar .boolean)) FieldMap.sound_nil ?_
  refine sound_field (by decide) (sound_nonNull (.scalar .boolean)) FieldMap.sound_nil ?_
  refine sound_field (by decide) (sound_scalarType .string) FieldMap.sound_nil ?_
  exact sound_field (by decide) (sound_scalarType .string) FieldMap.sound_nil FieldMap.sound_nil

omit h ht in
theorem sound_aggregateFields : aggregateFields.Sound (OutputField.Sound (Handle.Valid g)) :=
  sound_field (by decide) (sound_nonNull (.scalar .int)) FieldMap.sound_nil FieldMap.sound_nil

omit ht in
theorem yields_batchPayloadFields :
    Yields g (FieldMap.Sound (OutputField.Sound (Handle.Valid g))) (batchPayloadFields (fresh g)) := by
  refine (yields_scalar h .long).bind fun long hlong => yields_ok ?_
  exact sound_field (by decide) (sound_nonNull hlong) FieldMap.sound_nil FieldMap.sound_nil

theorem yields_edgeFields (henum : t.isEnum = false) :
    Yields g (FieldMap.Sound (OutputField.Sound (Handle.Valid g))) (edgeFields (fresh g) t.name) := by
  refine (yields_type (yields_object h ht henum)).bind fun object hobject => yields_ok ?_
  refine sound_field (by decide) (sound_nonNull hobject) FieldMap.sound_nil ?_
  exact sound_field (by decide) (sound_nonNull (.scalar .string)) FieldMap.sound_nil FieldMap.sound_nil

/-- A page has edges and an aggregate, which only models have. -/
theorem yields_connectionFields (hmodel : t.isModel = true) :
    Yields g (FieldMap.Sound (OutputField.Sound (Handle.Valid g)))
      (connectionFields (fresh g) t.name) := by
  refine (yields_shared h rfl).bind fun pageInfo hpageInfo => ?_
  refine (yields_edge h ht (ModelType.isEnum_of_isModel hmodel)).bind fun edge hedge => ?_
  refine (yields_aggregate h ht hmodel).bind fun aggregate haggregate => yields_ok ?_
  refine sound_field (by decide) (sound_nonNull hpageInfo) FieldMap.sound_nil ?_
  refine sound_field (by decide) ⟨rfl, hedge⟩ FieldMap.sound_nil ?_
  exact sound_field (by decide) (sound_nonNull haggregate) FieldMap.sound_nil FieldMap.sound_nil

/-! ## Queries -/

omit h ht in
/-- A field that is there only where something was made. -/
theorem sound_ifMade {α β : Type} {P : α → Prop} {Q : β → Prop} {made : Option α}
    {entry : α → String × β} (hmade : ∀ x ∈ made, P x)
    (hentry : ∀ x, P x → isName (entry x).1.toList = true ∧ Q (entry x).2) :
    FieldMap.Sound Q (ifMade made entry) := by
  intro e he
  obtain ⟨x, hx, rfl⟩ := List.mem_map.mp he
  exact hentry x (hmade x (Option.mem_toList.mp hx))

omit h ht in
theorem sound_requiredArg {name : String} (hname : isName name.toList = true) {x : Handle}
    (hx : x.Valid g) {args : FieldMap (InputField Handle)}
    (hargs : args.Sound (InputField.Sound (Handle.Valid g))) :
    FieldMap.Sound (InputField.Sound (Handle.Valid g)) (requiredArg name x :: args) :=
  FieldMap.sound_cons.mpr ⟨⟨hname, sound_nonNull hx⟩, hargs⟩

/-- The queries of a model; one item is asked for only where something selects it. -/
theorem yields_modelQueries (hmodel : t.isModel = true) :
    Yields g (FieldMap.Sound (OutputField.Sound (Handle.Valid g))) (modelQueries (fresh g) t.name) := by
  have hname := (h.type t ht).isName_name
  have henum := ModelType.isEnum_of_isModel hmodel
  refine (yields_type (yields_object h ht henum)).bind fun object hobject => ?_
  refine (yields_manyArgs h ht henum).bind fun args hargs => ?_
  refine (yields_input h ht henum (by decide : ("WhereUniqueInput", .whereUnique, .none) ∈ endings)
    rfl).bind fun unique hunique => ?_
  refine (yields_connection h ht hmodel).bind fun connection hconnection => ?_
  refine (yields_manyArgs h ht henum).bind fun pageArgs hpageArgs => yields_ok ?_
  refine FieldMap.Sound.ofEntries (FieldMap.sound_append.mpr ⟨?_, ?_⟩)
  · refine sound_field (isName_manyQueryName hname) ⟨rfl, hobject⟩ hargs ?_
    refine sound_ifMade hunique fun x hx => ⟨isName_oneQueryName hname, hobject, ?_⟩
    exact sound_requiredArg (by decide) hx FieldMap.sound_nil
  · exact sound_field (isName_connectionQueryName hname) (sound_nonNull hconnection) hpageArgs
      FieldMap.sound_nil

omit h ht in
theorem sound_nodeQuery {x : Handle} (hx : x.Valid g) : (nodeQuery x).Sound (Handle.Valid g) := by
  refine ⟨hx, FieldMap.sound_cons.mpr ⟨⟨by decide, sound_nonNull (.scalar .id)⟩, ?_⟩⟩
  exact FieldMap.sound_nil

omit ht in
/-- The queries of all models, and the query for an item that is found by its identifier. -/
theorem yields_queryFields :
    Yields g (FieldMap.Sound (OutputField.Sound (Handle.Valid g))) (queryFields g (fresh g)) := by
  have hblocks : Yields g (fun blocks => ∀ block ∈ blocks,
      FieldMap.Sound (OutputField.Sound (Handle.Valid g)) block)
      (g.models.mapM fun t => modelQueries (fresh g) t.name) := by
    refine Yields.mapM fun t ht => ?_
    obtain ⟨ht, hmodel⟩ := List.mem_filter.mp ht
    exact yields_modelQueries h ht hmodel
  refine hblocks.bind fun blocks hblocks => ?_
  have hfields := (FieldMap.sound_flatten hblocks).ofEntries
  dsimp only
  split
  · exact (yields_shared h rfl).bind fun node hnode =>
      yields_ok (hfields.insert (by decide) (sound_nodeQuery hnode))
  · exact yields_ok hfields

/-! ## Mutations -/

/-- Inputs of mutations that the schema can hold. -/
structure MutationInputs.Valid (g : TypeGraph) (inputs : MutationInputs) : Prop where
  filter : inputs.filter.Valid g
  unique : ∀ x ∈ inputs.unique, x.Valid g
  create : ∀ x ∈ inputs.create, x.Valid g
  update : ∀ x ∈ inputs.update, x.Valid g
  updateMany : ∀ x ∈ inputs.updateMany, x.Valid g

/-- Only the filter is sure to be there. -/
theorem yields_mutationInputs (henum : t.isEnum = false) :
    Yields g (MutationInputs.Valid g) (mutationInputs (fresh g) t.name) := by
  refine (yields_whereInput h ht henum).bind fun filter hfilter => ?_
  refine (yields_input h ht henum (by decide : ("WhereUniqueInput", .whereUnique, .none) ∈ endings)
    rfl).bind fun unique hunique => ?_
  refine (yields_input h ht henum (by decide : ("CreateInput", .create, .none) ∈ endings) rfl).bind
    fun create hcreate => ?_
  refine (yields_input h ht henum (by decide : ("UpdateInput", .update, .none) ∈ endings) rfl).bind
    fun update hupdate => ?_
  refine (yields_input h ht henum
    (by decide : ("UpdateManyMutationInput", .updateManyMutation, .none) ∈ endings) rfl).bind
    fun updateMany hupdateMany => ?_
  exact yields_ok ⟨hfilter, hunique, hcreate, hupdate, hupdateMany⟩

omit h ht in
theorem forall_mem_pair {α β : Type} {P : α → Prop} {Q : β → Prop} {a : Option α} {b : Option β}
    (ha : ∀ x ∈ a, P x) (hb : ∀ y ∈ b, Q y) :
    ∀ pair ∈ a.bind fun x => b.map (x, ·), P pair.1 ∧ Q pair.2 := by
  intro pair hpair
  obtain ⟨x, hx, hpair⟩ := Option.bind_eq_some_iff.mp hpair
  obtain ⟨y, hy, rfl⟩ := Option.map_eq_some_iff.mp hpair
  exact ⟨ha x hx, hb y hy⟩

omit h ht in
/-- A mutation takes its inputs not null, and is there only where it has all of them. -/
theorem sound_mutationFields {model : String} (hname : isName model.toList = true)
    {object batch : Handle} (hobject : object.Valid g) (hbatch : batch.Valid g)
    {inputs : MutationInputs} (hinputs : inputs.Valid g) :
    (mutationFields model object batch inputs).Sound (OutputField.Sound (Handle.Valid g)) := by
  have hnamed : ∀ verb : String, isName verb.toList = true → isName (verb ++ model).toList = true :=
    fun verb hverb => isName_append hverb (Naming.all_of_isName hname)
  have hfilter : FieldMap.Sound (InputField.Sound (Handle.Valid g))
      [("where", { type := .named inputs.filter })] :=
    FieldMap.sound_cons.mpr
      ⟨⟨(by decide : isName "where".toList = true), hinputs.filter⟩, FieldMap.sound_nil⟩
  have hpair := forall_mem_pair hinputs.unique hinputs.update
  refine FieldMap.sound_flatten fun block hblock => ?_
  simp only [List.mem_cons, List.not_mem_nil, or_false] at hblock
  rcases hblock with rfl | rfl | rfl | rfl | rfl | rfl
  · refine sound_field (hnamed "create" (by decide)) (sound_nonNull hobject) ?_ FieldMap.sound_nil
    exact sound_ifMade hinputs.create fun x hx =>
      ⟨(by decide : isName "data".toList = true), sound_nonNull hx⟩
  · refine sound_ifMade hpair fun x hx => ⟨hnamed "update" (by decide), hobject, ?_⟩
    exact sound_requiredArg (by decide) hx.2 (sound_requiredArg (by decide) hx.1 FieldMap.sound_nil)
  · refine sound_ifMade hinputs.updateMany fun x hx =>
      ⟨isName_manyMutationName hname (by decide), sound_nonNull hbatch, ?_⟩
    exact sound_requiredArg (by decide) hx hfilter
  · refine sound_ifMade (forall_mem_pair hpair hinputs.create) fun x hx =>
      ⟨hnamed "upsert" (by decide), sound_nonNull hobject, ?_⟩
    refine sound_requiredArg (by decide) hx.1.1 (sound_requiredArg (by decide) hx.2 ?_)
    exact sound_requiredArg (by decide) hx.1.2 FieldMap.sound_nil
  · refine sound_ifMade hinputs.unique fun x hx => ⟨hnamed "delete" (by decide), hobject, ?_⟩
    exact sound_requiredArg (by decide) hx FieldMap.sound_nil
  · exact sound_field (isName_manyMutationName hname (by decide)) (sound_nonNull hbatch) hfilter
      FieldMap.sound_nil

theorem yields_modelMutations (hmodel : t.isModel = true) :
    Yields g (FieldMap.Sound (OutputField.Sound (Handle.Valid g)))
      (modelMutations (fresh g) t.name) := by
  have henum := ModelType.isEnum_of_isModel hmodel
  refine (yields_type (yields_object h ht henum)).bind fun object hobject => ?_
  refine (yields_shared h rfl).bind fun batch hbatch => ?_
  refine (yields_mutationInputs h ht henum).bind fun inputs hinputs => yields_ok ?_
  exact (sound_mutationFields (h.type t ht).isName_name hobject hbatch hinputs).ofEntries

omit ht in
/-- The mutations of all models. -/
theorem yields_allMutations :
    Yields g (FieldMap.Sound (OutputField.Sound (Handle.Valid g))) (allMutations g (fresh g)) := by
  refine (Yields.mapM (Q := FieldMap.Sound (OutputField.Sound (Handle.Valid g))) fun t ht => ?_).bind
    fun blocks hblocks => yields_ok (FieldMap.sound_flatten hblocks).ofEntries
  obtain ⟨ht, hmodel⟩ := List.mem_filter.mp ht
  exact yields_modelMutations h ht hmodel

end OfType

end Fields

end OpenCrud.Generate
