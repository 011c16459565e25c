import OpenCrud.Proofs.Generate.Answers
import OpenCrud.Proofs.Schema.Described

/-!
# Descriptions of generated types

Which texts the types of a schema are described with. A type with fields of the datamodel has its own
description and those of its fields (`described_object_iff`); every other type has texts that are always the same
(`described_of_define`).

Inputs and arguments have no descriptions at all, with one exception: the identifier that the query for an item
of any model takes.
-/

namespace OpenCrud

/-- A type of the datamodel whose own description and those of its fields have a property. -/
def ModelType.Described (D : String → Prop) (t : ModelType) : Prop :=
  (∀ text ∈ t.description, D text) ∧ ∀ f ∈ t.fields, ∀ text ∈ f.description, D text

namespace Generate

open Datamodel
open MonadExcept (ofExcept)

/-- The texts that describe types and fields beside those of a datamodel, but for the scalars. -/
def fixedTexts : List String :=
  ["An object with an ID", "The id of the object.", "Information about pagination in a connection.",
   "The number of nodes that have been affected by the Batch operation.", "An edge in a connection.",
   "The item at the end of the edge.", "A cursor for use in pagination.",
   "A connection to a list of items.", "Information to aid in pagination.", "A list of edges.",
   "Fetches an object given its ID", "The ID of an object"]

/-! ## Nothing but types -/

/-- Fields of an input, or arguments, with nothing but types. -/
def PlainInputs (fields : FieldMap (InputField Handle)) : Prop :=
  ∀ entry ∈ fields, entry.2.Described fun _ => False

/-- A field of an input with nothing but a type, if there is one. -/
def PlainChoice (made : Option (String × InputField Handle)) : Prop :=
  ∀ entry ∈ made, entry.2.Described fun _ => False

/-- Fields with nothing but types and arguments that are plain too. -/
def PlainOutputs (fields : FieldMap (OutputField Handle)) : Prop :=
  ∀ entry ∈ fields, entry.2.Described fun _ => False

/-- Fields without descriptions say nothing that could break a property of descriptions. -/
theorem PlainOutputs.described {fields : FieldMap (OutputField Handle)} (h : PlainOutputs fields)
    (D : String → Prop) : ∀ entry ∈ fields, entry.2.Described D :=
  fun entry hentry => (h entry hentry).mono fun _ => False.elim

theorem PlainOutputs.ofEntries {entries : FieldMap (OutputField Handle)} (h : PlainOutputs entries) :
    PlainOutputs (.ofEntries entries) :=
  fun entry hentry => h entry (FieldMap.mem_of_mem_ofEntries hentry)

theorem plain_flatten {blocks : List (FieldMap (OutputField Handle))}
    (h : ∀ block ∈ blocks, PlainOutputs block) : PlainOutputs blocks.flatten := by
  intro entry hentry
  obtain ⟨block, hblock, hmem⟩ := List.mem_flatten.mp hentry
  exact h block hblock entry hmem

theorem plainInputs_nil : PlainInputs [] := nofun

theorem plain_inputField (e : TypeExpr Handle) :
    (InputField.Described (fun _ => False) { type := e }) := ⟨rfl, nofun⟩

theorem plain_outputField (e : TypeExpr Handle) {args : FieldMap (InputField Handle)}
    (hargs : PlainInputs args) : OutputField.Described (fun _ => False) { type := e, args } :=
  ⟨rfl, nofun, hargs⟩

section Inputs

variable (g : TypeGraph) (ask : Ask (Except Error))

/-! ## Filters -/

/-- Filters of one field differ in their names only; none is described. -/
theorem plain_suffixed (name : String) (suffixes : List String) (e : TypeExpr Handle) :
    PlainInputs (suffixed name suffixes e) :=
  List.forall_mem_map.mpr fun _ _ => plain_inputField e

/-- Merging the filters of families adds no description. -/
theorem gives_familiesFilters (families : List FilterFamily) (f : ModelField) :
    Gives PlainInputs (familiesFilters ask families f) := by
  have hfamily : ∀ family ∈ families, Gives PlainInputs (familyFilters ask family f) := fun _ _ =>
    gives_bind fun _ => gives_ok (plain_suffixed _ _ _)
  refine (Gives.mapM hfamily).bind fun maps hmaps => gives_ok fun entry hentry => ?_
  obtain ⟨map, hmap, hmem⟩ := FieldMap.mem_of_mem_merge hentry
  obtain ⟨filters, hfilters, heq⟩ := List.mem_map.mp hmap
  cases heq
  exact hmaps map hfilters entry hmem

theorem gives_scalarFilters (f : ModelField) :
    Gives (fun made => ∀ map ∈ made, PlainInputs map) (scalarFilters g ask f) := by
  have hfamilies : ∀ families : List FilterFamily,
      Gives (fun made => ∀ map ∈ made, PlainInputs map)
        (if f.isList then pure none else
          (familiesFilters ask families f >>= fun filters => pure (some filters))) := by
    intro families
    split
    · exact gives_ok nofun
    · refine (gives_familiesFilters ask families f).bind fun filters hfilters => gives_ok ?_
      rintro _ ⟨⟩
      exact hfilters
  refine gives_bind fun pointed => ?_
  cases pointed with
  | scalar s => exact hfamilies _
  | enum u => exact hfamilies _
  | relation u => exact nofun

theorem gives_relationFilters (f : ModelField) : Gives PlainInputs (relationFilters g ask f) := by
  have hrelated : ∀ suffixes : List String, Gives PlainInputs (relatedFilters g ask suffixes f) := by
    intro suffixes
    unfold relatedFilters
    split
    · exact nofun
    · exact gives_bind fun _ => gives_ok (plain_suffixed _ _ _)
  refine gives_bind fun _ => ?_
  split
  · exact hrelated _
  · exact hrelated _

theorem gives_fieldFilters (f : ModelField) :
    Gives (fun made => ∀ map ∈ made, PlainInputs map) (fieldFilters g ask f) := by
  refine gives_bind fun isLeaf => ?_
  split
  · exact gives_scalarFilters g ask f
  · refine (gives_relationFilters g ask f).bind fun filters hfilters => gives_ok ?_
    rintro _ ⟨⟩
    exact hfilters

/-- A filter has no descriptions, be its fields made from fields of the datamodel or for combining filters. -/
theorem gives_whereFields (t : ModelType) : Gives PlainInputs (whereFields g ask t) := by
  refine (Gives.mapM fun f _ => gives_fieldFilters g ask f).bind fun blocks hblocks => ?_
  refine gives_bind fun itself => gives_ok fun entry hentry => ?_
  obtain ⟨map, hmap, hmem⟩ := FieldMap.mem_of_mem_merge hentry
  rcases List.mem_append.mp hmap with hmap | hmap
  · exact hblocks _ hmap map rfl entry hmem
  · cases List.mem_singleton.mp hmap
    exact plain_suffixed _ _ _ entry hmem

/-! ## Inputs -/

theorem gives_optionalFields (fields : List ModelField) :
    Gives PlainInputs (fields.mapM (optionalField ask) >>= fun entries => pure (.ofEntries entries)) := by
  have hfield : ∀ f ∈ fields, Gives (fun entry => entry.2.Described fun _ => False) (optionalField ask f) :=
    fun _ _ => gives_bind fun e => gives_ok (plain_inputField e)
  refine (Gives.mapM hfield).bind fun entries hentries => gives_ok fun entry hentry => ?_
  exact hentries entry (FieldMap.mem_of_mem_ofEntries hentry)

/-- Dropping fields leaves the others as they are. -/
theorem gives_chosenFields {fields : List ModelField}
    {field : ModelField → Except Error (Option (String × InputField Handle))}
    (hfield : ∀ f ∈ fields, Gives PlainChoice (field f)) :
    Gives PlainInputs (fields.mapM field >>= fun made => pure (.ofEntries (made.filterMap id))) := by
  refine (Gives.mapM hfield).bind fun made hmade => gives_ok fun entry hentry => ?_
  obtain ⟨choice, hchoice, heq⟩ := List.mem_filterMap.mp (FieldMap.mem_of_mem_ofEntries hentry)
  exact hmade choice hchoice entry heq

/-- A field that takes an input has nothing but a type, if the input is there at all. -/
theorem gives_mapInput (name : String) (modify : TypeExpr Handle → TypeExpr Handle)
    (input : Except Error (Option Handle)) :
    Gives PlainChoice
      (input >>= fun made => pure (made.map fun x => (name, ({ type := modify (.named x) } : InputField Handle)))) := by
  refine gives_bind fun made => gives_ok fun entry hentry => ?_
  obtain ⟨x, _, rfl⟩ := Option.map_eq_some_iff.mp hentry
  exact plain_inputField _

theorem gives_someInput (name : String) (type : Except Error (TypeExpr Handle)) :
    Gives PlainChoice
      (type >>= fun e => pure (some (name, ({ type := e } : InputField Handle)))) := by
  refine gives_bind fun e => gives_ok ?_
  rintro _ ⟨⟩
  exact plain_inputField e

theorem gives_createField (f : ModelField) : Gives PlainChoice (createField g ask f) := by
  refine gives_bind fun pointed => ?_
  cases pointed with
  | scalar s => exact gives_someInput f.name _
  | enum u => exact gives_someInput f.name _
  | relation u =>
    dsimp only
    split
    · exact gives_mapInput f.name id _
    · exact gives_mapInput f.name (requiredIf f.isRequired) _

theorem gives_updateField (f : ModelField) : Gives PlainChoice (updateField g ask f) := by
  refine gives_bind fun pointed => ?_
  cases pointed with
  | scalar s => exact gives_someInput f.name _
  | enum u => exact gives_someInput f.name _
  | relation u =>
    dsimp only
    split
    · exact gives_mapInput f.name id _
    · exact gives_mapInput f.name id _

theorem plain_operationFields (modify : TypeExpr Handle → TypeExpr Handle) (operations : Operations) :
    PlainInputs (operationFields modify operations) :=
  List.forall_mem_map.mpr fun _ _ => plain_inputField _

/-- The fields of an input have nothing but types. -/
theorem gives_inputFields (r : Request) (t : ModelType) : Gives PlainInputs (inputFields g ask r t) := by
  unfold inputFields
  split
  · exact gives_whereFields g ask t
  · exact gives_bind fun _ => gives_optionalFields ask _
  · exact gives_chosenFields fun f _ => gives_createField g ask f
  · exact gives_chosenFields fun f _ => gives_updateField g ask f
  · exact gives_bind fun _ => gives_optionalFields ask _
  · exact gives_bind fun _ => gives_ok (plain_operationFields id _)
  · exact gives_bind fun _ => gives_ok (plain_operationFields listOf _)
  · exact gives_bind fun _ => gives_ok (plain_operationFields id _)
  · exact gives_bind fun _ => gives_ok (plain_operationFields listOf _)
  · exact gives_bind fun _ => gives_ok (plain_operationFields .nonNull _)
  · exact gives_bind fun _ => gives_ok (plain_operationFields .nonNull _)
  · exact gives_ok nofun

end Inputs

/-! ## Arguments of root fields -/

section Outputs

variable (g : TypeGraph) (ask : Ask (Except Error))

theorem plain_requiredArg (name : String) (x : Handle) {args : FieldMap (InputField Handle)}
    (hargs : PlainInputs args) : PlainInputs (requiredArg name x :: args) :=
  List.forall_mem_cons.mpr ⟨plain_inputField _, hargs⟩

theorem gives_manyArgs (typeName : String) : Gives PlainInputs (manyArgs ask typeName) := by
  have hmade : ∀ (name : String) (input : Option Handle), PlainInputs (argIfMade name input) := by
    intro name input
    cases input with
    | none => exact nofun
    | some x => exact List.forall_mem_singleton.mpr (plain_inputField _)
  have hpage : PlainInputs pageArgs := by
    simp only [PlainInputs, pageArgs, List.forall_mem_cons]
    exact ⟨plain_inputField _, plain_inputField _, plain_inputField _, plain_inputField _,
      plain_inputField _, nofun⟩
  refine gives_bind fun filter => gives_bind fun order => gives_ok ?_
  exact List.forall_mem_append.mpr ⟨List.forall_mem_append.mpr ⟨hmade _ _, hmade _ _⟩, hpage⟩

theorem plain_ifMade {α : Type} (made : Option α) {entry : α → String × OutputField Handle}
    (hentry : ∀ x, (entry x).2.Described fun _ => False) : PlainOutputs (ifMade made entry) :=
  List.forall_mem_map.mpr fun x _ => hentry x

/-! ## Root fields -/

theorem gives_modelQueries (model : String) : Gives PlainOutputs (modelQueries ask model) := by
  refine gives_bind fun object => (gives_manyArgs ask model).bind fun args hargs => ?_
  refine gives_bind fun unique => gives_bind fun connection => ?_
  refine (gives_manyArgs ask model).bind fun pageArgs hpageArgs => gives_ok (PlainOutputs.ofEntries ?_)
  refine List.forall_mem_append.mpr ⟨List.forall_mem_cons.mpr ⟨plain_outputField _ hargs, ?_⟩,
    List.forall_mem_singleton.mpr (plain_outputField _ hpageArgs)⟩
  exact plain_ifMade unique fun x => plain_outputField _ (plain_requiredArg "where" x plainInputs_nil)

variable {D : String → Prop} (hD : ∀ text ∈ fixedTexts, D text)

include hD

/-- The only argument with a description is the identifier of the query for an item of any model. -/
theorem described_nodeQuery (node : Handle) : (nodeQuery node).Described D := by
  refine ⟨rfl, ?_, ?_⟩
  · rintro _ ⟨⟩
    exact hD _ (by decide)
  · refine List.forall_mem_singleton.mpr ⟨rfl, ?_⟩
    rintro _ ⟨⟩
    exact hD _ (by decide)

/-- Queries are not described, apart from the one for an item of any model. -/
theorem gives_queryFields :
    Gives (fun fields => ∀ entry ∈ fields, entry.2.Described D) (queryFields g ask) := by
  refine (Gives.mapM fun t _ => gives_modelQueries ask t.name).bind fun blocks hblocks => ?_
  have hfields := (plain_flatten hblocks).ofEntries.described D
  dsimp only
  split
  · refine gives_bind fun node => gives_ok fun entry hentry => ?_
    rcases FieldMap.mem_of_mem_insert hentry with rfl | hentry
    · exact described_nodeQuery hD node
    · exact hfields entry hentry
  · exact gives_ok hfields

omit hD in
/-- None of the six mutations of a model is described, nor is any of their arguments. -/
theorem plain_mutationFields (model : String) (object batch : Handle) (inputs : MutationInputs) :
    PlainOutputs (mutationFields model object batch inputs) := by
  have hfilter : PlainInputs [("where", { type := .named inputs.filter })] :=
    List.forall_mem_singleton.mpr (plain_inputField _)
  refine plain_flatten fun block hblock => ?_
  simp only [List.mem_cons, List.not_mem_nil, or_false] at hblock
  rcases hblock with rfl | rfl | rfl | rfl | rfl | rfl
  · refine List.forall_mem_singleton.mpr (plain_outputField _ ?_)
    exact List.forall_mem_map.mpr fun _ _ => plain_inputField _
  · refine plain_ifMade _ fun pair => plain_outputField _ ?_
    exact plain_requiredArg _ _ (plain_requiredArg _ _ plainInputs_nil)
  · exact plain_ifMade _ fun data => plain_outputField _ (plain_requiredArg _ _ hfilter)
  · refine plain_ifMade _ fun parts => plain_outputField _ ?_
    exact plain_requiredArg _ _ (plain_requiredArg _ _ (plain_requiredArg _ _ plainInputs_nil))
  · exact plain_ifMade _ fun unique => plain_outputField _ (plain_requiredArg _ _ plainInputs_nil)
  · exact List.forall_mem_singleton.mpr (plain_outputField _ hfilter)

omit hD in
theorem gives_allMutations : Gives PlainOutputs (allMutations g ask) := by
  have hmodel : ∀ t ∈ g.models, Gives PlainOutputs (modelMutations ask t.name) := fun t _ =>
    gives_bind fun _ => gives_bind fun _ => gives_bind fun _ =>
      gives_ok (plain_mutationFields _ _ _ _).ofEntries
  exact (Gives.mapM hmodel).bind fun blocks hblocks => gives_ok (plain_flatten hblocks).ofEntries

/-! ## Fields of objects and interfaces -/

/-- A field with one of the texts that are always the same. -/
theorem described_field {text : String} (htext : text ∈ fixedTexts) (e : TypeExpr Handle) :
    OutputField.Described D { type := e, description := some text } := by
  refine ⟨rfl, ?_, nofun⟩
  rintro _ ⟨⟩
  exact hD text htext

omit hD in
theorem described_plainField (e : TypeExpr Handle) : OutputField.Described D { type := e } :=
  (plain_outputField e plainInputs_nil).mono fun _ => False.elim

/-- Only the fields of objects take descriptions from the datamodel. -/
theorem gives_outputFields {r : Request} (hr : r.kind ≠ .object) :
    Gives (fun fields => ∀ entry ∈ fields, entry.2.Described D) (outputFields g ask r) := by
  unfold outputFields
  split
  · rename_i hkind
    exact absurd hkind hr
  · exact gives_ok (List.forall_mem_singleton.mpr (described_field hD (by decide) _))
  · refine gives_ok ?_
    simp only [pageInfoFields, List.forall_mem_cons]
    exact ⟨described_plainField _, described_plainField _, described_plainField _, described_plainField _, nofun⟩
  · exact gives_bind fun long =>
      gives_ok (List.forall_mem_singleton.mpr (described_field hD (by decide) _))
  · refine gives_bind fun object => gives_ok ?_
    simp only [List.forall_mem_cons]
    exact ⟨described_field hD (by decide) _, described_field hD (by decide) _, nofun⟩
  · exact gives_ok (List.forall_mem_singleton.mpr (described_plainField _))
  · refine gives_bind fun pageInfo => gives_bind fun edge => gives_bind fun aggregate => gives_ok ?_
    simp only [List.forall_mem_cons]
    exact ⟨described_field hD (by decide) _, described_field hD (by decide) _, described_plainField _, nofun⟩
  · exact gives_queryFields g ask hD
  · exact fun fields hfields => PlainOutputs.described (gives_allMutations g ask fields hfields) D
  · exact gives_ok nofun

end Outputs

/-! ## Bodies -/

/-- The values of an enum are those that a type of the datamodel lists, or the ways to order by its fields. -/
theorem enumValues_cases {g : TypeGraph} (h : WellFormed g.types) {r : Request} {values : List String}
    (hvalues : enumValues g r = .ok values) : ∃ t ∈ g.types, values = t.values ∨
      ∀ value ∈ values, ∃ f ∈ t.fields, value = f.name ++ "_ASC" ∨ value = f.name ++ "_DESC" := by
  obtain ⟨t, ht, hvalues⟩ := bind_eq_ok_iff.mp hvalues
  have hmem : t ∈ g.types := by
    unfold subject at ht
    split at ht
    · rename_i hfind
      cases ht
      exact (TypeGraph.mem_of_find? hfind).1
    · cases ht
  refine ⟨t, hmem, ?_⟩
  split at hvalues
  · cases hvalues
    exact Or.inl rfl
  · rw [orderValues, leafFields_of_subset h hmem (List.filter_subset_self _)] at hvalues
    cases hvalues
    refine Or.inr fun value hvalue => ?_
    obtain ⟨f, hf, hvalue⟩ := List.mem_flatMap.mp hvalue
    refine ⟨f, (List.mem_filter.mp (List.mem_filter.mp hf).1).1, ?_⟩
    simpa only [List.mem_cons, List.not_mem_nil, or_false] using hvalue

/-- The values of an enum are names. -/
theorem gives_enumValues {g : TypeGraph} (h : WellFormed g.types) (r : Request) :
    Gives (fun values => ∀ value ∈ values, isName value.toList = true)
      (ofExcept (enumValues g r) : Except Error (List String)) := by
  intro values hvalues
  rw [ofExcept_eq] at hvalues
  obtain ⟨t, ht, hcases⟩ := enumValues_cases h hvalues
  rcases hcases with rfl | horder
  · exact (h.type t ht).isName_value
  · intro value hvalue
    obtain ⟨f, hf, hvalue⟩ := horder value hvalue
    have hname := ((h.type t ht).field f hf).isName_name
    rcases hvalue with rfl | rfl
    · exact isName_append hname (by decide)
    · exact isName_append hname (by decide)

/-- Checking names and reporting problems leaves the fields, and so their descriptions, as they are. -/
theorem gives_checked {α : Type} {P : FieldMap α → Prop} {fields : Except Error (FieldMap α)}
    (hfields : Gives P fields) {D : String → Prop} {build : FieldMap α → TypeBody Handle}
    (hbuild : ∀ made, P made → (build made).Described D) (r : Request) :
    Gives (TypeBody.Described D)
      (do return build (← ofExcept (checkFieldNames (← resolving r fields)))) := by
  intro body hbody
  obtain ⟨made, hmade, hbody⟩ := bind_eq_ok_iff.mp hbody
  obtain ⟨checked, hchecked, hbody⟩ := bind_eq_ok_iff.mp hbody
  cases hbody
  rw [eq_of_checkFieldNames hchecked]
  exact hbuild made (hfields made (resolving_eq_ok_iff.mp hmade))

section Body

variable {g : TypeGraph} (h : WellFormed g.types) (ask : Ask (Except Error)) {D : String → Prop}
  (hD : ∀ text ∈ fixedTexts, D text)

include h hD

/-- What the types are made up of that do not stand for a type with fields of the datamodel. -/
theorem gives_body {r : Request} (hr : r.kind ≠ .object) : Gives (TypeBody.Described D) (body g ask r) := by
  have hfields := gives_outputFields g ask hD hr
  have hvalues : ∀ values : List String, (∀ value ∈ values, isName value.toList = true) →
      TypeBody.Described D (.enum (.ofEntries (values.map (·, {}))) : TypeBody Handle) := by
    intro values hvalues entry hentry
    obtain ⟨value, hvalue, rfl⟩ := List.mem_map.mp (FieldMap.mem_of_mem_ofEntries hentry)
    exact ⟨hvalues value hvalue, rfl⟩
  have hinputs : ∀ fields, PlainInputs fields → TypeBody.Described D (.inputObject fields) :=
    fun _ hplain entry hentry => (hplain entry hentry).mono fun _ => False.elim
  obtain ⟨kind, subject, args⟩ := r
  cases kind
  case scalar => exact gives_ok rfl
  case enum | orderBy =>
    exact (gives_enumValues h _).bind fun values hnames => gives_ok (hvalues values hnames)
  case object => exact absurd rfl hr
  case node =>
    refine gives_checked hfields (fun made hmade => ?_) _
    exact hmade
  case pageInfo | batchPayload | edge | aggregate | connection | query | mutation =>
    refine gives_bind fun implemented => gives_checked hfields (fun made hmade => ?_) _
    exact hmade
  all_goals
    refine gives_bind fun t => gives_checked (gives_inputFields g ask _ t) (fun made hmade => ?_) _
    exact hinputs made hmade

/-! ## Types -/

/-- Every type but those with fields of the datamodel is described with texts that are always the same. -/
theorem described_of_define {r : Request} (hr : r.kind ≠ .object) {d : NamedType Handle}
    (hd : define g ask (.made r) = .ok d) : d.Described D := by
  obtain ⟨body, hbody, hd⟩ := bind_eq_ok_iff.mp hd
  cases hd
  refine ⟨fun text htext => hD text ?_, gives_body h ask hD hr body hbody⟩
  dsimp only at htext
  unfold description at htext
  split at htext
  · rename_i hkind
    exact absurd hkind hr
  all_goals
    cases htext
  all_goals decide

omit h hD in
/-- A field of an object is described as the field of the datamodel is; its arguments are not. -/
theorem described_objectField_iff {f : ModelField} {entry : String × OutputField Handle}
    (hentry : objectField g ask f = .ok entry) :
    entry.2.Described D ↔ ∀ text ∈ f.description, D text := by
  obtain ⟨_, args, rfl, hargs⟩ := exists_of_objectField hentry
  have hplain : PlainInputs args := by
    rcases hargs with rfl | ⟨u, hargs⟩
    · exact plainInputs_nil
    · exact gives_manyArgs ask u.name args hargs
  refine ⟨fun hd => hd.2.1, fun hd => ⟨rfl, hd, fun arg harg => ?_⟩⟩
  exact (hplain arg harg).mono fun _ => False.elim

omit hD in
theorem described_objectFields_iff {t : ModelType} (ht : t ∈ g.types) {fields : FieldMap (OutputField Handle)}
    (hfields : objectFields g ask t = .ok fields) :
    (∀ entry ∈ fields, entry.2.Described D) ↔ ∀ f ∈ t.fields, ∀ text ∈ f.description, D text :=
  forall_mem_iff_of_mapM_eq_ok ((objectFields_eq_ok_iff h ht).mp hfields) fun _ _ _ hentry =>
    described_objectField_iff ask hentry

omit hD in
/-- A type with fields of the datamodel is described as it is there. -/
theorem described_object_iff {t : ModelType} (ht : t ∈ g.types) {d : NamedType Handle}
    (hd : define g ask (.made (.of .object t.name)) = .ok d) : d.Described D ↔ t.Described D := by
  obtain ⟨interfaces, fields, hfields, rfl⟩ := exists_of_define_object h ht hd
  exact and_congr_right fun _ => described_objectFields_iff h ask ht hfields

/-- The types of a schema are described with a property where the types of the datamodel are, and the scalars of
every schema. -/
theorem described_of_valid {x : Handle} (hx : x.Valid g)
    (hscalars : ∀ s, x = .scalar s → ∀ text ∈ s.description?, D text)
    (htypes : ∀ t ∈ g.types, t.isEnum = false → t.Described D) {d : NamedType Handle}
    (hd : define g ask x = .ok d) : d.Described D := by
  have hshared : ∀ k : Kind, k.isShared = true → k ≠ .object := by
    rintro _ hk rfl
    cases hk
  have hendings : ∀ row ∈ endings, row.2.1 ≠ .object := by decide
  cases hx with
  | scalar s =>
    cases hd
    exact ⟨hscalars s rfl, rfl⟩
  | shared hk => exact described_of_define h ask hD (hshared _ hk) hd
  | enum _ _ => exact described_of_define h ask hD (by decide : Kind.enum ≠ .object) hd
  | object ht henum => exact (described_object_iff h ask ht hd).mpr (htypes _ ht henum)
  | aggregate _ _ => exact described_of_define h ask hD (by decide : Kind.aggregate ≠ .object) hd
  | helper _ _ hrow _ _ => exact described_of_define h ask hD (hendings _ hrow) hd

end Body

end Generate

end OpenCrud
