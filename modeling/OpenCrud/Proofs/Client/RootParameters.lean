import OpenCrud.Proofs.Client.Delegates
import OpenCrud.Proofs.Generate.NodeInterface

/-!
# Parameters of root operations

A query or a mutation takes its arguments as one parameter. Under the labels `data` and `where` only the first
argument would be rendered, and the label is chosen by the name of a field, the number of its arguments and its type.
Main result: for all root fields of a generated schema no argument is lost, since what is rendered under a label has
one argument, and everything else is rendered as a record (`rendersArguments_of_parse`).
-/

namespace OpenCrud.Client

open Datamodel Generate Naming

/-! ## What is rendered -/

/-- The mark of parameters as a whole: they may be left out where every argument may be null. -/
def outerMark (args : FieldMap (InputField String)) : String :=
  if args.all fun argument => !argument.2.type.isNonNull then "?" else ""

/-- The arguments of a field as a record: each under its name and in its place, with a mark where it may be null. -/
def recordText (s : Schema) (args : FieldMap (InputField String)) : String :=
  let padding := if args.isEmpty then "" else " "
  "args" ++ outerMark args ++ ": \x7b" ++ padding ++
    ", ".intercalate (args.map fun argument =>
      argument.1 ++ nullMark argument ++ ": " ++ argumentType s {} argument.2.type) ++ padding ++ "\x7d"

/-- The ways to render all arguments of a field: a single one under a label, or any number of them in a record. -/
inductive Renders (s : Schema) (args : FieldMap (InputField String)) : Option String → String → Prop
  | single {label : String} {argument : String × InputField String} (hargs : args = [argument]) :
    Renders s args (some label) (label ++ outerMark args ++ ": " ++ argumentType s {} argument.2.type)
  | record : Renders s args none (recordText s args)

/-- The label that a mutation has for its argument: a creation takes something as data, and a deletion as a
selection. -/
def mutationLabel? (entry : String × OutputField String) : Option String :=
  if "create".toList <+: entry.1.toList ∧ entry.2.args ≠ [] then some "data"
  else if "delete".toList <+: entry.1.toList then some "where"
  else none

/-- The query for one item of a model. -/
def itemQuery (t : ModelType) : String × OutputField String :=
  (lowerFirst t.name,
    { type := .named t.name, args := [("where", { type := .nonNull (.named (t.name ++ "WhereUniqueInput")) })] })

/-- The queries for one item of a model; a model has one where it has a unique scalar or enum field. -/
def itemQueries (g : TypeGraph) : List (String × OutputField String) :=
  (g.models.filter (hasUniqueLeaf g)).map itemQuery

/-- The label that a query has for its argument. -/
def queryLabel? (g : TypeGraph) (entry : String × OutputField String) : Option String :=
  if entry ∈ itemQueries g then some "where" else none

/-! ## One field -/

section Field

variable {s : Schema} {style : CallStyle} {name : String} {field : OutputField String}

theorem optionalMark_eq_outerMark (args : FieldMap (InputField String)) :
    optionalMark (args.all fun argument => !argument.2.type.isNonNull) = outerMark args := rfl

theorem render_record : (Parameters.record (field.args.all fun argument => !argument.2.type.isNonNull)
      (field.args.map (ArgumentEntry.ofArgument s))).render = recordText s field.args := by
  have hentries : (field.args.map (ArgumentEntry.ofArgument s)).map ArgumentEntry.render =
      field.args.map fun argument =>
        argument.1 ++ nullMark argument ++ ": " ++ argumentType s {} argument.2.type := by
    rw [List.map_map]
    refine List.map_congr_left fun argument _ => ?_
    simp only [Function.comp_apply, ArgumentEntry.render, ArgumentEntry.ofArgument, optionalMark_eq_nullMark]
  rw [Parameters.render, recordText, hentries, List.isEmpty_map, optionalMark_eq_outerMark]

theorem outerMark_singleton (argument : String × InputField String) :
    outerMark [argument] = nullMark argument := by
  rw [← optionalMark_eq_outerMark, ← optionalMark_eq_nullMark, List.all_cons, List.all_nil, Bool.and_true]

theorem renders_single {args : FieldMap (InputField String)} {argument : String × InputField String}
    (hargs : args = [argument]) {label : String} : Renders s args (some label) (label ++ singleRest s argument) := by
  have htext : label ++ singleRest s argument =
      label ++ outerMark args ++ ": " ++ argumentType s {} argument.2.type := by
    rw [hargs, singleRest, outerMark_singleton, String.append_assoc, String.append_assoc, String.append_assoc]
  rw [htext]
  exact .single hargs

/-- Without a label the arguments are rendered as a record. -/
theorem render_ofField_record (hlabel : field.args = [] ∨
      (Parameters.takesData style name = false ∧ Parameters.takesSelection s style name field = false)) :
    (Parameters.ofField s style name field).render = recordText s field.args := by
  rw [← render_record, Parameters.ofField]
  cases hargs : field.args with
  | nil => rfl
  | cons first rest =>
    rcases hlabel with hnil | ⟨hdata, hselection⟩
    · rw [hargs] at hnil
      cases hnil
    · simp only [List.map_cons, hdata, hselection, Bool.false_eq_true, if_false]

end Field

/-! ## What the root fields are called with -/

section Promised

variable {g : TypeGraph} {t : ModelType} {query mutation : String × OutputField Handle}

/-- Only the query for an item of any model takes the place of another query. -/
theorem mem_queriesOf (hquery : query ∈ g.models.flatMap (promisedOf g)) (hname : query.1 ≠ "node") :
    query ∈ queriesOf g := by
  rw [queriesOf]
  split
  · exact FieldMap.mem_insert_of_ne hquery hname
  · exact hquery

theorem queriesOf_cases (hquery : query ∈ queriesOf g) :
    (query = ("node", nodeField) ∧ g.models.any implementsNode = true) ∨ ∃ t ∈ g.models, query ∈ promisedOf g t := by
  rw [queriesOf] at hquery
  split at hquery
  · rename_i hany
    exact (FieldMap.mem_of_mem_insert hquery).imp (fun hnode => ⟨hnode, hany⟩) List.mem_flatMap.mp
  · exact .inr (List.mem_flatMap.mp hquery)

/-- Lists of items and of pages are called alike, and there is perhaps a query for one item. -/
theorem promisedOf_cases (hquery : query ∈ promisedOf g t) : query.2.args = listArgs g t ∨
    (hasUniqueLeaf g t = true ∧ query = (lowerFirst t.name,
      { type := .named (.made (.of .object t.name))
        args := [("where", { type := .nonNull (.named (.made (.of .whereUnique t.name))) })] })) := by
  simp only [promisedOf, List.mem_append, List.mem_singleton] at hquery
  rcases hquery with (rfl | hquery) | rfl
  · exact .inl rfl
  · split at hquery
    · exact .inr ⟨‹_›, List.mem_singleton.mp hquery⟩
    · cases hquery
  · exact .inl rfl

theorem nodup_args_promisedOf (hquery : query ∈ promisedOf g t) : (FieldMap.keys query.2.args).Nodup := by
  rcases promisedOf_cases hquery with hargs | ⟨_, rfl⟩
  · rw [hargs, listArgs]
    split
    · simp [FieldMap.keys, pageArgs]
    · simp [FieldMap.keys, pageArgs]
  · exact List.nodup_singleton _

theorem nodup_args_promisedMutations (hmutation : mutation ∈ promisedMutations g t) :
    (FieldMap.keys mutation.2.args).Nodup := by
  simp only [promisedMutations, List.mem_append, List.mem_ite_nil_right, List.mem_singleton] at hmutation
  rcases hmutation with ((((rfl | ⟨_, rfl⟩) | ⟨_, rfl⟩) | ⟨_, rfl⟩) | ⟨_, rfl⟩) | rfl
  · dsimp only
    split
    · exact List.nodup_singleton _
    · exact List.nodup_nil
  · simp [FieldMap.keys, inputOf]
  · simp [FieldMap.keys, inputOf, filterOf]
  · simp [FieldMap.keys, inputOf]
  · exact List.nodup_singleton _
  · exact List.nodup_singleton _

theorem keys_map_args (field : OutputField Handle) :
    FieldMap.keys (field.map Handle.name).args = FieldMap.keys field.args := by
  rw [OutputField.map, FieldMap.keys, List.map_map]
  rfl

end Promised

/-! ## Mutations -/

section Generated

variable {g : TypeGraph} (h : WellFormed g.types) {s : Schema} (hs : Assembled g s)
  {entry : String × OutputField String}

include h hs

theorem nodup_args_mutation (hentry : entry ∈ rootFields s s.mutation) : (FieldMap.keys entry.2.args).Nodup := by
  rw [rootFields_mutation h hs] at hentry
  obtain ⟨mutation, hmutation, rfl⟩ := List.mem_map.mp hentry
  obtain ⟨t, _, hmutation⟩ := List.mem_flatMap.mp hmutation
  rw [keys_map_args]
  exact nodup_args_promisedMutations hmutation

theorem renders_mutation (hentry : entry ∈ rootFields s s.mutation) :
    Renders s entry.2.args (mutationLabel? entry) (mutationStyle.parameters s entry) := by
  unfold mutationLabel?
  rcases mutation_cases h hs hentry with ⟨hcreate, _, hnone | ⟨argument, hone⟩⟩ |
    ⟨hcreate, hdelete, _, argument, hone⟩ | ⟨hcreate, hdelete, _⟩
  · -- A creation that takes nothing has an empty record.
    rw [if_neg fun hc => hc.2 hnone, if_neg (not_deletion_of_creation hcreate), parameters_mutation,
      render_ofField_record (.inl hnone)]
    exact .record
  · have hargs : entry.2.args ≠ [] := by
      rw [hone]
      exact List.cons_ne_nil _ _
    rw [if_pos ⟨hcreate, hargs⟩, parameters_creation hone hcreate]
    exact renders_single hone
  · rw [if_neg fun hc => hcreate hc.1, if_pos hdelete, parameters_deletion hone hcreate hdelete]
    exact renders_single hone
  · have hdata : Parameters.takesData mutationStyle.callStyle entry.1 = false :=
      Bool.eq_false_iff.mpr (mt takesData_mutation.mp hcreate)
    have hselection : Parameters.takesSelection s mutationStyle.callStyle entry.1 entry.2 = false :=
      Bool.eq_false_iff.mpr (mt takesSelection_mutation.mp hdelete)
    rw [if_neg fun hc => hcreate hc.1, if_neg hdelete, parameters_mutation,
      render_ofField_record (.inr ⟨hdata, hselection⟩)]
    exact .record

/-! ## Queries -/

/-- The interface of all models is no object. -/
theorem isObject_node (hnode : g.models.any implementsNode = true) : s.isObject "Node" = false := by
  obtain ⟨d, hd, _⟩ := hs.exists_define h ((reached_node_iff h hs).mpr hnode)
  have hfind : s.find? "Node" = some (d.map Handle.name) := hs.find? _ ((reached_node_iff h hs).mpr hnode) d hd
  have hcategory : Category.of (d.map Handle.name) = .interface := (category_map _ _).trans (category_of_define hd)
  rw [Schema.isObject, hfind, Option.any_some]
  unfold Category.of at hcategory
  cases hbody : (d.map Handle.name).body with
  | object =>
    rw [hbody] at hcategory
    cases hcategory
  | _ => rfl

/-- A query for one item takes a selection of an object. All other queries take more than one argument, or give no
object. -/
theorem query_cases (hentry : entry ∈ rootFields s s.query) :
    (entry ∈ itemQueries g ∧ Parameters.refersToObject s entry.2.type = true ∧
      ∃ argument, entry.2.args = [argument]) ∨
    (entry ∉ itemQueries g ∧
      ¬(entry.2.args.length = 1 ∧ Parameters.refersToObject s entry.2.type = true)) := by
  -- Lists of items and of pages take too much to be a query for one item.
  have hlong : ∀ t : ModelType, ((listArgs g t).map fun a => (a.1, a.2.map Handle.name)).length ≠ 1 := by
    intro t
    rw [List.length_map, listArgs, List.length_append]
    have hpage : pageArgs.length = 5 := rfl
    omega
  have hitem : ∀ e ∈ itemQueries g, e.2.args.length = 1 := by
    rintro e he
    obtain ⟨t, _, rfl⟩ := List.mem_map.mp he
    rfl
  rw [rootFields_query h hs] at hentry
  obtain ⟨query, hquery, rfl⟩ := List.mem_map.mp hentry
  rcases queriesOf_cases hquery with ⟨rfl, hany⟩ | ⟨t, ht, hquery⟩
  · refine .inr ⟨fun hc => ?_, fun hc => ?_⟩
    · obtain ⟨t, ht, htype⟩ := List.mem_map.mp hc
      obtain ⟨hmem, _⟩ := List.mem_filter.mp (List.mem_filter.mp ht).1
      have hname : t.name = "Node" := TypeExpr.named.inj (congrArg (·.2.type) htype)
      exact (h.type t hmem).not_reserved (hname ▸ by decide)
    · have hobject := hc.2
      simp [OutputField.map, nodeField, TypeExpr.map, Parameters.refersToObject, outerModifier, TypeExpr.inner?,
        Handle.name, Request.typeName, Request.shared, Request.of, isObject_node h hs hany] at hobject
  · rcases promisedOf_cases hquery with hargs | ⟨hunique, rfl⟩
    · have hlong := hlong t
      rw [← hargs] at hlong
      exact .inr ⟨fun hc => hlong (hitem _ hc), fun hc => hlong hc.1⟩
    · refine .inl ⟨List.mem_map.mpr ⟨t, List.mem_filter.mpr ⟨ht, hunique⟩, rfl⟩, ?_, _, rfl⟩
      have hobject : s.isObject t.name = true := hs.isObject_model h ht
      simp [OutputField.map, TypeExpr.map, Parameters.refersToObject, outerModifier, Handle.name,
        Request.typeName, Request.of, hobject]

theorem nodup_args_query (hentry : entry ∈ rootFields s s.query) : (FieldMap.keys entry.2.args).Nodup := by
  rw [rootFields_query h hs] at hentry
  obtain ⟨query, hquery, rfl⟩ := List.mem_map.mp hentry
  rw [keys_map_args]
  rcases queriesOf_cases hquery with ⟨rfl, _⟩ | ⟨t, _, hquery⟩
  · exact List.nodup_singleton _
  · exact nodup_args_promisedOf hquery

theorem renders_query (hentry : entry ∈ rootFields s s.query) :
    Renders s entry.2.args (queryLabel? g entry) (queryStyle.parameters s entry) := by
  have hstyle : queryStyle.parameters s entry =
      (Parameters.ofField s queryStyle.callStyle entry.1 entry.2).render ++ "" := rfl
  have hdata : Parameters.takesData queryStyle.callStyle entry.1 = false := rfl
  have hselection : Parameters.takesSelection s queryStyle.callStyle entry.1 entry.2 =
      (decide (entry.2.args.length = 1) && Parameters.refersToObject s entry.2.type) := rfl
  rw [hstyle, String.append_empty, queryLabel?]
  rcases query_cases h hs hentry with ⟨hitem, hobject, argument, hone⟩ | ⟨hitem, hmany⟩
  · have htakes : Parameters.takesSelection s queryStyle.callStyle entry.1 entry.2 = true := by
      rw [hselection, hobject, hone]
      rfl
    rw [if_pos hitem, ofField_single hone, hdata, htakes, if_neg Bool.false_ne_true, if_pos rfl, render_single]
    exact renders_single hone
  · have htakes : Parameters.takesSelection s queryStyle.callStyle entry.1 entry.2 = false := by
      rw [hselection, ← Bool.not_eq_true, Bool.and_eq_true, decide_eq_true_eq]
      exact hmany
    rw [if_neg hitem, render_ofField_record (.inr ⟨hdata, htakes⟩)]
    exact .record

/-- A model with a unique scalar or enum field has its query for one item, unless it is called like the query for an
item of any model. -/
theorem itemQuery_mem {t : ModelType} (ht : t ∈ g.models) (hunique : hasUniqueLeaf g t = true)
    (hname : t.name ≠ "node") : itemQuery t ∈ rootFields s s.query := by
  have hquery : (lowerFirst t.name,
      { type := .named (.made (.of .object t.name))
        args := [("where", { type := .nonNull (.named (.made (.of .whereUnique t.name))) })] }) ∈
        g.models.flatMap (promisedOf g) := by
    refine List.mem_flatMap.mpr ⟨t, ht, ?_⟩
    simp only [promisedOf, hunique, if_true, List.mem_append, List.mem_singleton]
    exact .inl (.inr trivial)
  have hpresent := mem_queriesOf hquery
    (mt (oneQueryName_eq_node_iff (h.type t (List.mem_filter.mp ht).1)).mp hname)
  rw [rootFields_query h hs]
  exact List.mem_map.mpr ⟨_, hpresent, rfl⟩

end Generated

/-! ## Main result -/

/--
No argument of a root operation is lost.

The queries and the mutations of a client are rendered field by field, with a parameter list each. All arguments of a
field, which have different names, are in its parameter list: under `data` that of a creation, under `where` that of a
deletion and that of the query for one item of a model, and in a record everything else. A record says for each
argument whether it may be null, and a parameter list as a whole whether all of its arguments may be.

A model with a unique scalar or enum field has its query for one item, unless it is called like the query for an item
of any model.
-/
theorem rendersArguments_of_parse {database : Database} {source : List Char} {types : List ModelType}
    (h : parse database source = .ok types) {s : Schema} (hs : schema (.ofTypes types) = .ok s) :
    queries s = methodLines "" (queryStyle.parameters s) (queryStyle.returns s) (rootFields s s.query) ∧
    mutations s = methodLines "" (mutationStyle.parameters s) (mutationStyle.returns s) (rootFields s s.mutation) ∧
    (∀ t ∈ types, t.isModel = true → hasUniqueLeaf (.ofTypes types) t = true → t.name ≠ "node" →
      itemQuery t ∈ rootFields s s.query) ∧
    (∀ entry ∈ rootFields s s.query, (FieldMap.keys entry.2.args).Nodup ∧
      Renders s entry.2.args (queryLabel? (.ofTypes types) entry) (queryStyle.parameters s entry)) ∧
    ∀ entry ∈ rootFields s s.mutation, (FieldMap.keys entry.2.args).Nodup ∧
      Renders s entry.2.args (mutationLabel? entry) (mutationStyle.parameters s entry) := by
  have hwf := (wellFormed_of_parse h).ofTypes
  have hmodels := TypeGraph.models_ofTypes (wellFormed_of_parse h).nodup_names
  rw [schema_eq_assemble] at hs
  have hassembled := assembled_of_eq_ok hwf hs
  refine ⟨rootMethods_eq s s.query queryStyle, rootMethods_eq s s.mutation mutationStyle,
    fun t ht hmodel hunique hname => ?_, fun entry hentry => ?_, fun entry hentry => ?_⟩
  · exact itemQuery_mem hwf hassembled (hmodels ▸ List.mem_filter.mpr ⟨ht, hmodel⟩) hunique hname
  · exact ⟨nodup_args_query hwf hassembled hentry, renders_query hwf hassembled hentry⟩
  · exact ⟨nodup_args_mutation hwf hassembled hentry, renders_mutation hwf hassembled hentry⟩

/-- A model that implements `Node`, with something to write and to select by. -/
def titledSource : List Char := "type Book { id: ID! title: String! }".toList

/-- The parameters of lists of books. -/
def pageParameters : String :=
  "args?: \x7b where?: BookWhereInput, orderBy?: BookOrderByInput, skip?: Int, after?: String, before?: String, " ++
    "first?: Int, last?: Int \x7d"

/-- The parameter lists of such a schema. -/
def TitledParameters (s : Schema) : Prop :=
  (rootFields s s.query).map (fun entry => (entry.1, queryStyle.parameters s entry)) =
    [("books", pageParameters), ("book", "where: BookWhereUniqueInput"), ("booksConnection", pageParameters),
      ("node", "args: \x7b id: ID_Output \x7d")] ∧
  (rootFields s s.mutation).map (fun entry => (entry.1, mutationStyle.parameters s entry)) =
    [("createBook", "data: BookCreateInput"),
      ("updateBook", "args: \x7b data: BookUpdateInput, where: BookWhereUniqueInput \x7d"),
      ("updateManyBooks", "args: \x7b data: BookUpdateManyMutationInput, where?: BookWhereInput \x7d"),
      ("upsertBook", "args: \x7b where: BookWhereUniqueInput, create: BookCreateInput, update: BookUpdateInput \x7d"),
      ("deleteBook", "where: BookWhereUniqueInput"), ("deleteManyBooks", "where?: BookWhereInput")]

instance (s : Schema) : Decidable (TitledParameters s) := inferInstanceAs (Decidable (_ ∧ _))

/-- A book is created from data, selected and deleted by a selection, and all else takes a record; what may be null has
a mark. -/
theorem rendersArguments_titled : ∃ types s, parse .relational titledSource = .ok types ∧
    schema (.ofTypes types) = .ok s ∧
    (∀ entry ∈ rootFields s s.query, (FieldMap.keys entry.2.args).Nodup ∧
      Renders s entry.2.args (queryLabel? (.ofTypes types) entry) (queryStyle.parameters s entry)) ∧
    (∀ entry ∈ rootFields s s.mutation, (FieldMap.keys entry.2.args).Nodup ∧
      Renders s entry.2.args (mutationLabel? entry) (mutationStyle.parameters s entry)) ∧
    TitledParameters s := by
  obtain ⟨types, s, h, hs, hlists⟩ : ∃ types s, parse .relational titledSource = .ok types ∧
      schema (.ofTypes types) = .ok s ∧ TitledParameters s :=
    exists_schema_of_any (by decide +kernel)
  obtain ⟨_, _, _, hqueries, hmutations⟩ := rendersArguments_of_parse h hs
  exact ⟨types, s, h, hs, hqueries, hmutations, hlists⟩

end OpenCrud.Client
