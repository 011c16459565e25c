import OpenCrud.Client.Method
import OpenCrud.Proofs.Generate.Assembled

/-!
# Delegates and the methods they stand for

A delegate should be called like its method, with what is needed to hand the call on behind. Main result: all
queries keep to that, and of the mutations all but the creations that take an argument: there a method says
`data` and its delegate `where` (`delegateParameters_iff`).

Mutations that are delegated are rendered as queries are. A query for one object takes its only argument as the
selection, and a creation looks like one.
-/

namespace OpenCrud.Client

open Datamodel Generate

/-! ## Methods as text -/

/-- The methods of a client for the queries. -/
def queryStyle : MethodStyle where
  operation := .query

/-- The methods of a client for the mutations. -/
def mutationStyle : MethodStyle where
  operation := .mutation
  isMutation := true

/-- The delegates of the queries. -/
def delegateQueryStyle : MethodStyle where
  operation := .query
  isDelegate := true

/-- The delegates of the mutations. -/
def delegateMutationStyle : MethodStyle where
  operation := .mutation
  isDelegate := true

/-- The fields of a root type, if the schema has it. -/
def rootFields (s : Schema) (root : Option String) : FieldMap (OutputField String) :=
  match s.root? root with
  | none => []
  | some t => t.body.outputFields

/-- The parameter list that a style gives to the method for a root field. -/
def MethodStyle.parameters (style : MethodStyle) (s : Schema) (entry : String × OutputField String) :
    String :=
  (style.method s entry.1 entry.2).parameters

/-- The type that a style gives to the method for a root field. -/
def MethodStyle.returns (style : MethodStyle) (s : Schema) (entry : String × OutputField String) : String :=
  (style.method s entry.1 entry.2).result

/-- A line for each root field: its name, perhaps a mark, a parameter list and a result. -/
def methodLines (mark : String) (parameters result : String × OutputField String → String)
    (fields : FieldMap (OutputField String)) : String :=
  ";\n".intercalate (fields.map fun entry =>
    "    " ++ entry.1 ++ ": " ++ mark ++ "(" ++ parameters entry ++ ") => " ++ result entry)

/-- What is rendered for a root type are the lines of its fields. -/
theorem rootMethods_eq (s : Schema) (root : Option String) (style : MethodStyle) :
    rootMethods s root style =
      methodLines (if style.isDelegate then "<T>" else "") (style.parameters s) (style.returns s)
        (rootFields s root) := by
  rw [rootMethods, rootFields]
  cases s.root? root with
  | none => rfl
  | some t =>
    have hline : ∀ entry : String × OutputField String, (style.method s entry.1 entry.2).render =
        "    " ++ entry.1 ++ ": " ++ (if style.isDelegate then "<T>" else "") ++ "(" ++
          style.parameters s entry ++ ") => " ++ style.returns s entry := by
      intro entry
      simp only [Method.render, function, MethodStyle.parameters, MethodStyle.returns, MethodStyle.method,
        String.append_assoc]
      rfl
    simp only [MethodStyle.methods, methodLines, hline]

/-! ## Parameters of one field -/

/-- That a delegate is called like its method, with what is needed to hand the call on behind. -/
def Agree (s : Schema) (style delegate : MethodStyle) (entry : String × OutputField String) : Prop :=
  delegate.parameters s entry = style.parameters s entry ++ ", info?: GraphQLResolveInfo, options?: Options"

section Parameters

variable {s : Schema} {entry : String × OutputField String}

theorem agree_query (s : Schema) (entry : String × OutputField String) :
    Agree s queryStyle delegateQueryStyle entry := by
  have hstyle : queryStyle.parameters s entry =
      (Parameters.ofField s delegateQueryStyle.callStyle entry.1 entry.2).render ++ "" := rfl
  rw [Agree, hstyle, String.append_empty]
  rfl

theorem parameters_mutation : mutationStyle.parameters s entry =
    (Parameters.ofField s mutationStyle.callStyle entry.1 entry.2).render := by
  have hstyle : mutationStyle.parameters s entry =
      (Parameters.ofField s mutationStyle.callStyle entry.1 entry.2).render ++ "" := rfl
  rw [hstyle, String.append_empty]

theorem parameters_delegateMutation : delegateMutationStyle.parameters s entry =
    (Parameters.ofField s delegateMutationStyle.callStyle entry.1 entry.2).render ++
      ", info?: GraphQLResolveInfo, options?: Options" := rfl

theorem agree_of_ofField_eq
    (h : Parameters.ofField s mutationStyle.callStyle entry.1 entry.2 =
      Parameters.ofField s delegateMutationStyle.callStyle entry.1 entry.2) :
    Agree s mutationStyle delegateMutationStyle entry := by
  rw [Agree, parameters_mutation, parameters_delegateMutation, h]

theorem agree_of_args_eq_nil (hargs : entry.2.args = []) :
    Agree s mutationStyle delegateMutationStyle entry := by
  refine agree_of_ofField_eq ?_
  rw [Parameters.ofField, Parameters.ofField, hargs]
  rfl

theorem takesData_mutation {name : String} :
    Parameters.takesData mutationStyle.callStyle name = true ↔ "create".toList <+: name.toList :=
  List.isPrefixOf_iff_prefix

theorem takesSelection_mutation {name : String} {field : OutputField String} :
    Parameters.takesSelection s mutationStyle.callStyle name field = true ↔
      "delete".toList <+: name.toList :=
  List.isPrefixOf_iff_prefix

theorem takesSelection_delegate {name : String} {field : OutputField String} :
    Parameters.takesSelection s delegateMutationStyle.callStyle name field = true ↔
      field.args.length = 1 ∧ Parameters.refersToObject s field.type = true := by
  have hselection : Parameters.takesSelection s delegateMutationStyle.callStyle name field =
      (true && decide (field.args.length = 1) && Parameters.refersToObject s field.type) := rfl
  rw [hselection, Bool.true_and, Bool.and_eq_true, decide_eq_true_eq]

/-- A field with several arguments is called with a record of them, unless its name says that something is
created or deleted. -/
theorem agree_of_many_args (hcreate : ¬"create".toList <+: entry.1.toList)
    (hdelete : ¬"delete".toList <+: entry.1.toList) (hargs : entry.2.args.length ≠ 1) :
    Agree s mutationStyle delegateMutationStyle entry := by
  refine agree_of_ofField_eq ?_
  cases hcases : entry.2.args with
  | nil => simp only [Parameters.ofField, hcases, List.map_nil]
  | cons first rest =>
    have hselection : ¬Parameters.takesSelection s delegateMutationStyle.callStyle entry.1 entry.2 = true :=
      fun hc => hargs (takesSelection_delegate.mp hc).1
    simp only [Parameters.ofField, hcases, List.map_cons]
    rw [if_neg (mt takesData_mutation.mp hcreate), if_neg (mt takesSelection_mutation.mp hdelete),
      if_neg hselection]
    rfl

/-- The mark of an argument: that it may be null. -/
def nullMark (argument : String × InputField String) : String := if argument.2.type.isNonNull then "" else "?"

theorem optionalMark_eq_nullMark (argument : String × InputField String) :
    optionalMark (!argument.2.type.isNonNull) = nullMark argument := by
  unfold nullMark
  cases argument.2.type.isNonNull with
  | true => rfl
  | false => rfl

/-- What comes behind the label of a single argument. -/
def singleRest (s : Schema) (argument : String × InputField String) : String :=
  nullMark argument ++ ": " ++ argumentType s {} argument.2.type

theorem render_single (label : String) (argument : String × InputField String) :
    (Parameters.single label (!argument.2.type.isNonNull) (argumentType s {} argument.2.type)).render =
      label ++ singleRest s argument := by
  simp only [Parameters.render, singleRest, optionalMark_eq_nullMark, String.append_assoc]

section Single

variable {argument : String × InputField String} (hargs : entry.2.args = [argument])

include hargs

theorem ofField_single (style : CallStyle) : Parameters.ofField s style entry.1 entry.2 =
    if Parameters.takesData style entry.1 then
      .single "data" (!argument.2.type.isNonNull) (argumentType s {} argument.2.type)
    else if Parameters.takesSelection s style entry.1 entry.2 then
      .single "where" (!argument.2.type.isNonNull) (argumentType s {} argument.2.type)
    else .record (!argument.2.type.isNonNull) [.ofArgument s argument] := by
  simp only [Parameters.ofField, hargs, List.map_cons, List.map_nil, List.all_cons, List.all_nil,
    Bool.and_true]
  rfl

theorem parameters_delegate_single (hobject : Parameters.refersToObject s entry.2.type = true) :
    delegateMutationStyle.parameters s entry =
      "where" ++ singleRest s argument ++ ", info?: GraphQLResolveInfo, options?: Options" := by
  have hone : entry.2.args.length = 1 := by
    rw [hargs]
    rfl
  have hdata : ¬Parameters.takesData delegateMutationStyle.callStyle entry.1 = true := nofun
  rw [parameters_delegateMutation, ofField_single hargs, if_neg hdata,
    if_pos (takesSelection_delegate.mpr ⟨hone, hobject⟩), render_single]

theorem parameters_creation (hcreate : "create".toList <+: entry.1.toList) :
    mutationStyle.parameters s entry = "data" ++ singleRest s argument := by
  rw [parameters_mutation, ofField_single hargs, if_pos (takesData_mutation.mpr hcreate), render_single]

theorem parameters_deletion (hcreate : ¬"create".toList <+: entry.1.toList)
    (hdelete : "delete".toList <+: entry.1.toList) :
    mutationStyle.parameters s entry = "where" ++ singleRest s argument := by
  rw [parameters_mutation, ofField_single hargs, if_neg (mt takesData_mutation.mp hcreate),
    if_pos (takesSelection_mutation.mpr hdelete), render_single]

end Single

end Parameters

/-! ## The mutations of a datamodel -/

theorem not_prefix_append {v v' : String} (hv : ¬v.toList <+: v'.toList) (hv' : ¬v'.toList <+: v.toList)
    (a : String) : ¬v.toList <+: (v' ++ a).toList := by
  rintro ⟨rest, hrest⟩
  refine append_ne_append hv hv' (String.ofList rest) a (String.toList_inj.mp ?_)
  rw [String.toList_append, String.toList_ofList, hrest]

/-- No name begins as that of a creation and as that of a deletion. -/
theorem not_deletion_of_creation {name : String} (hcreate : "create".toList <+: name.toList) :
    ¬"delete".toList <+: name.toList := by
  intro hdelete
  rcases List.prefix_or_prefix_of_prefix hcreate hdelete with hc | hc
  · exact absurd hc (by decide)
  · exact absurd hc (by decide)

theorem prefix_append (v a : String) : v.toList <+: (v ++ a).toList := by
  rw [String.toList_append]
  exact List.prefix_append _ _

/-- A mutation creates an item with at most one argument, or deletes by one argument, or does something else
with several arguments. -/
theorem promisedMutations_cases {g : TypeGraph} {t : ModelType} {entry : String × OutputField Handle}
    (hentry : entry ∈ promisedMutations g t) :
    ("create".toList <+: entry.1.toList ∧
      entry.2.type = .nonNull (.named (.made (.of .object t.name))) ∧
      entry.2.args = if isWritable t then [inputOf t "data" .create] else []) ∨
    (¬"create".toList <+: entry.1.toList ∧ "delete".toList <+: entry.1.toList ∧
      (entry.2.type = .named (.made (.of .object t.name)) ∨
        entry.2.type = .nonNull (.named (.made (.shared .batchPayload)))) ∧
      ∃ argument, entry.2.args = [argument]) ∨
    (¬"create".toList <+: entry.1.toList ∧ ¬"delete".toList <+: entry.1.toList ∧
      entry.2.args.length ≠ 1) := by
  simp only [promisedMutations, List.mem_append, List.mem_ite_nil_right, List.mem_singleton] at hentry
  rcases hentry with ((((rfl | ⟨_, rfl⟩) | ⟨_, rfl⟩) | ⟨_, rfl⟩) | ⟨_, rfl⟩) | rfl
  · exact Or.inl ⟨prefix_append _ _, rfl, rfl⟩
  · exact Or.inr (Or.inr ⟨not_prefix_append (by decide) (by decide) _,
      not_prefix_append (by decide) (by decide) _, by simp⟩)
  · exact Or.inr (Or.inr ⟨not_prefix_append (by decide) (by decide) _,
      not_prefix_append (by decide) (by decide) _, by simp⟩)
  · exact Or.inr (Or.inr ⟨not_prefix_append (by decide) (by decide) _,
      not_prefix_append (by decide) (by decide) _, by simp⟩)
  · exact Or.inr (Or.inl ⟨not_prefix_append (by decide) (by decide) _, prefix_append _ _, Or.inl rfl,
      _, rfl⟩)
  · have hmany : "delete".toList <+: "deleteMany".toList := by decide
    exact Or.inr (Or.inl ⟨not_prefix_append (by decide) (by decide) _,
      hmany.trans (prefix_append _ _), Or.inr rfl, _, rfl⟩)

section Generated

variable {g : TypeGraph} (h : WellFormed g.types) {s : Schema} (hs : Assembled g s)

include h hs

theorem rootFields_query : rootFields s s.query =
    (queriesOf g).map fun entry => (entry.1, entry.2.map Handle.name) := by
  rw [rootFields, hs.root?_query h, queriesOf]
  cases hmodels : g.models with
  | nil => rfl
  | cons t rest => rfl

theorem rootFields_mutation : rootFields s s.mutation =
    (g.models.flatMap (promisedMutations g)).map fun entry => (entry.1, entry.2.map Handle.name) := by
  rw [rootFields, hs.root?_mutation h]
  cases hmodels : g.models with
  | nil => rfl
  | cons t rest => rfl

/-- What the mutations of a schema are: creations that take something or nothing, deletions, and mutations that
are called with a record. -/
theorem mutation_cases {entry : String × OutputField String} (hentry : entry ∈ rootFields s s.mutation) :
    ("create".toList <+: entry.1.toList ∧ Parameters.refersToObject s entry.2.type = true ∧
      (entry.2.args = [] ∨ ∃ argument, entry.2.args = [argument])) ∨
    (¬"create".toList <+: entry.1.toList ∧ "delete".toList <+: entry.1.toList ∧
      Parameters.refersToObject s entry.2.type = true ∧ ∃ argument, entry.2.args = [argument]) ∨
    (¬"create".toList <+: entry.1.toList ∧ ¬"delete".toList <+: entry.1.toList ∧
      entry.2.args.length ≠ 1) := by
  rw [rootFields_mutation h hs] at hentry
  obtain ⟨⟨name, field⟩, hfield, rfl⟩ := List.mem_map.mp hentry
  obtain ⟨t, ht, hfield⟩ := List.mem_flatMap.mp hfield
  have hmodel : s.isObject (Request.of .object t.name).typeName = true := hs.isObject_model h ht
  have hbatch : s.isObject (Request.shared .batchPayload).typeName = true := hs.isObject_batchPayload h ht
  rcases promisedMutations_cases hfield with ⟨hcreate, htype, hargs⟩ |
    ⟨hcreate, hdelete, htype, argument, hargs⟩ | ⟨hcreate, hdelete, hargs⟩
  -- A creation gives the object; it takes something where there is something to write.
  · refine Or.inl ⟨hcreate, ?_, ?_⟩
    · simp only at htype
      simp [OutputField.map, htype, TypeExpr.map, Parameters.refersToObject, outerModifier,
        TypeExpr.inner?, Handle.name, hmodel]
    · simp only at hargs
      cases hwritable : isWritable t with
      | true => exact Or.inr ⟨_, by rw [OutputField.map, hargs, hwritable]; rfl⟩
      | false => exact Or.inl (by rw [OutputField.map, hargs, hwritable]; rfl)
  · refine Or.inr (Or.inl ⟨hcreate, hdelete, ?_, _, by rw [OutputField.map, hargs]; rfl⟩)
    simp only at htype
    rcases htype with htype | htype
    · simp [OutputField.map, htype, TypeExpr.map, Parameters.refersToObject, outerModifier, Handle.name,
        hmodel]
    · simp [OutputField.map, htype, TypeExpr.map, Parameters.refersToObject, outerModifier,
        TypeExpr.inner?, Handle.name, hbatch]
  · refine Or.inr (Or.inr ⟨hcreate, hdelete, ?_⟩)
    rw [OutputField.map, List.length_map]
    exact hargs

/-- There is a creation that takes something exactly where a model has something to write. -/
theorem exists_creation_iff : (∃ entry ∈ rootFields s s.mutation,
      "create".toList <+: entry.1.toList ∧ entry.2.args ≠ []) ↔ ∃ t ∈ g.models, isWritable t = true := by
  rw [rootFields_mutation h hs]
  constructor
  · rintro ⟨_, hentry, hcreate, hargs⟩
    obtain ⟨⟨name, field⟩, hfield, rfl⟩ := List.mem_map.mp hentry
    obtain ⟨t, ht, hfield⟩ := List.mem_flatMap.mp hfield
    refine ⟨t, ht, ?_⟩
    rcases promisedMutations_cases hfield with ⟨_, _, hif⟩ | ⟨hnot, _⟩ | ⟨hnot, _⟩
    · by_contra hc
      simp only at hif
      rw [if_neg hc] at hif
      exact hargs (by rw [OutputField.map, hif]; rfl)
    · exact absurd hcreate hnot
    · exact absurd hcreate hnot
  · rintro ⟨t, ht, hwritable⟩
    have hfirst : ("create" ++ t.name,
        { type := .nonNull (.named (.made (.of .object t.name)))
          args := if isWritable t then [inputOf t "data" .create] else [] }) ∈ promisedMutations g t := by
      simp only [promisedMutations, List.mem_append, List.mem_singleton, true_or]
    refine ⟨_, List.mem_map_of_mem (List.mem_flatMap.mpr ⟨t, ht, hfirst⟩), prefix_append _ _, ?_⟩
    rw [OutputField.map, if_pos hwritable]
    exact List.cons_ne_nil _ _

/-- A creation that takes something says `data`, and its delegate `where`. -/
theorem parameters_of_creation {entry : String × OutputField String}
    (hentry : entry ∈ rootFields s s.mutation) (hcreate : "create".toList <+: entry.1.toList)
    (hargs : entry.2.args ≠ []) :
    ∃ rest, mutationStyle.parameters s entry = "data" ++ rest ∧
      delegateMutationStyle.parameters s entry =
        "where" ++ rest ++ ", info?: GraphQLResolveInfo, options?: Options" := by
  rcases mutation_cases h hs hentry with ⟨_, hobject, hnone | ⟨argument, hone⟩⟩ | ⟨hnot, _⟩ | ⟨hnot, _⟩
  · exact absurd hnone hargs
  · exact ⟨singleRest s argument, parameters_creation hone hcreate, parameters_delegate_single hone hobject⟩
  · exact absurd hcreate hnot
  · exact absurd hcreate hnot

/-- A deletion says `where`, and so does its delegate. -/
theorem parameters_of_deletion {entry : String × OutputField String}
    (hentry : entry ∈ rootFields s s.mutation) (hdelete : "delete".toList <+: entry.1.toList) :
    ∃ rest, mutationStyle.parameters s entry = "where" ++ rest ∧
      delegateMutationStyle.parameters s entry =
        "where" ++ rest ++ ", info?: GraphQLResolveInfo, options?: Options" := by
  rcases mutation_cases h hs hentry with ⟨hcreate, _⟩ | ⟨hnot, _, hobject, argument, hone⟩ | ⟨_, hnot, _⟩
  · exact absurd hdelete (not_deletion_of_creation hcreate)
  · exact ⟨singleRest s argument, parameters_deletion hone hnot hdelete,
      parameters_delegate_single hone hobject⟩
  · exact absurd hdelete hnot

theorem agree_mutation_iff {entry : String × OutputField String}
    (hentry : entry ∈ rootFields s s.mutation) :
    Agree s mutationStyle delegateMutationStyle entry ↔
      ¬("create".toList <+: entry.1.toList ∧ entry.2.args ≠ []) := by
  constructor
  · rintro hagree ⟨hcreate, hargs⟩
    obtain ⟨rest, hmethod, hdelegate⟩ := parameters_of_creation h hs hentry hcreate hargs
    rw [Agree, hmethod, hdelegate, String.append_assoc, String.append_assoc] at hagree
    exact append_ne_append (by decide) (by decide) _ _ hagree
  · intro hnot
    rcases mutation_cases h hs hentry with ⟨hcreate, _⟩ | ⟨_, hdelete, _⟩ | ⟨hcreate, hdelete, hargs⟩
    · exact agree_of_args_eq_nil (Decidable.not_not.mp fun hc => hnot ⟨hcreate, hc⟩)
    · obtain ⟨rest, hmethod, hdelegate⟩ := parameters_of_deletion h hs hentry hdelete
      rw [Agree, hmethod, hdelegate]
    · exact agree_of_many_args hcreate hdelete hargs

end Generated

/-! ## Main result -/

/--
The queries and the mutations of a client are rendered field by field, with a parameter list each, and so are
their delegates.

The parameters of every delegated query are those of the query with what is needed to hand the call on. So are
those of a delegated mutation exactly where it is no creation that takes something: such a creation takes it as
`data`, and its delegate as `where`. Deletions take what they select by as `where` in both.
-/
theorem delegateParameters_iff {database : Database} {source : List Char} {types : List ModelType}
    (h : parse database source = .ok types) {s : Schema} (hs : schema (.ofTypes types) = .ok s) :
    (queries s = methodLines "" (queryStyle.parameters s) (queryStyle.returns s) (rootFields s s.query) ∧
      delegateQueries s =
        methodLines "<T>" (delegateQueryStyle.parameters s) (fun _ => "T") (rootFields s s.query) ∧
      mutations s =
        methodLines "" (mutationStyle.parameters s) (mutationStyle.returns s) (rootFields s s.mutation) ∧
      delegateMutations s =
        methodLines "<T>" (delegateMutationStyle.parameters s) (fun _ => "T") (rootFields s s.mutation)) ∧
    (∀ entry ∈ rootFields s s.query, Agree s queryStyle delegateQueryStyle entry) ∧
    (∀ entry ∈ rootFields s s.mutation,
      (Agree s mutationStyle delegateMutationStyle entry ↔
        ¬("create".toList <+: entry.1.toList ∧ entry.2.args ≠ [])) ∧
      ("create".toList <+: entry.1.toList → entry.2.args ≠ [] →
        ∃ rest, mutationStyle.parameters s entry = "data" ++ rest ∧
          delegateMutationStyle.parameters s entry =
            "where" ++ rest ++ ", info?: GraphQLResolveInfo, options?: Options") ∧
      ("delete".toList <+: entry.1.toList →
        ∃ rest, mutationStyle.parameters s entry = "where" ++ rest ∧
          delegateMutationStyle.parameters s entry =
            "where" ++ rest ++ ", info?: GraphQLResolveInfo, options?: Options")) ∧
    ((∀ entry ∈ rootFields s s.mutation, Agree s mutationStyle delegateMutationStyle entry) ↔
      ∀ t ∈ types, t.isModel = true → isWritable t = false) := by
  have hwf := (wellFormed_of_parse h).ofTypes
  rw [schema_eq_assemble] at hs
  have hassembled := assembled_of_eq_ok hwf hs
  refine ⟨⟨rootMethods_eq s s.query queryStyle, rootMethods_eq s s.query delegateQueryStyle,
      rootMethods_eq s s.mutation mutationStyle, rootMethods_eq s s.mutation delegateMutationStyle⟩,
    fun entry _ => agree_query s entry, fun entry hentry => ⟨agree_mutation_iff hwf hassembled hentry,
      parameters_of_creation hwf hassembled hentry, parameters_of_deletion hwf hassembled hentry⟩, ?_⟩
  have hmodels := TypeGraph.models_ofTypes (wellFormed_of_parse h).nodup_names
  have hexists := exists_creation_iff hwf hassembled
  rw [hmodels] at hexists
  -- A model that can be written has a creation, and a creation is where the two differ.
  constructor
  · intro hagree t ht hmodel
    by_contra hwritable
    rw [Bool.not_eq_false] at hwritable
    obtain ⟨entry, hentry, hcreation⟩ := hexists.mpr ⟨t, List.mem_filter.mpr ⟨ht, hmodel⟩, hwritable⟩
    exact (agree_mutation_iff hwf hassembled hentry).mp (hagree entry hentry) hcreation
  · intro hnone entry hentry
    refine (agree_mutation_iff hwf hassembled hentry).mpr fun hcreation => ?_
    obtain ⟨t, ht, hwritable⟩ := hexists.mp ⟨entry, hentry, hcreation⟩
    obtain ⟨hmem, hmodel⟩ := List.mem_filter.mp ht
    rw [hnone t hmem hmodel] at hwritable
    cases hwritable

/-- The delegates of a schema with one model, which can be written. -/
theorem delegateParameters_number : ∃ s,
    parse .relational "type A { a: Int }".toList = .ok [numberModel "A"] ∧
    schema (.ofTypes [numberModel "A"]) = .ok s ∧
    (∀ entry ∈ rootFields s s.query, Agree s queryStyle delegateQueryStyle entry) ∧
    ((∀ entry ∈ rootFields s s.mutation, Agree s mutationStyle delegateMutationStyle entry) ↔
      ∀ t ∈ [numberModel "A"], t.isModel = true → isWritable t = false) := by
  have hparse : parse .relational "type A { a: Int }".toList = .ok [numberModel "A"] := rfl
  obtain ⟨s, hs⟩ : ∃ s, schema (.ofTypes [numberModel "A"]) = .ok s := exists_eq_ok (by decide +kernel)
  obtain ⟨_, hqueries, _, hmutations⟩ := delegateParameters_iff hparse hs
  exact ⟨s, hparse, hs, hqueries, hmutations⟩

/-- A creation takes its argument as `data`, and its delegate takes it as `where`. -/
theorem creation_delegated_as_selection :
    parse .relational "type A { a: Int }".toList = .ok [numberModel "A"] ∧
    (schema (.ofTypes [numberModel "A"])).map (fun s => (rootFields s s.mutation).map fun entry =>
        (entry.1, mutationStyle.parameters s entry, delegateMutationStyle.parameters s entry)) =
      .ok [("createA", "data: ACreateInput",
          "where: ACreateInput, info?: GraphQLResolveInfo, options?: Options"),
        ("updateManyAs", "args: \x7b data: AUpdateManyMutationInput, where?: AWhereInput \x7d",
          "args: \x7b data: AUpdateManyMutationInput, where?: AWhereInput \x7d, info?: GraphQLResolveInfo, options?: Options"),
        ("deleteManyAs", "where?: AWhereInput",
          "where?: AWhereInput, info?: GraphQLResolveInfo, options?: Options")] := by
  refine ⟨rfl, ?_⟩
  decide +kernel

end OpenCrud.Client
