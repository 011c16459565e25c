import OpenCrud.Proofs.Generate.FiniteInputs

/-!
# What the fields of objects refer to

A type refers to types that are made for the same type of the datamodel, for one that its fields point at, or for
no type in particular, and a root type to what is made for the models (`Refers`). So nothing refers to a root type,
and the interface of items that are found by their identifiers is referred to only where there are such items. Main
results: `gives_outputParts` for the fields of objects, `refers_of_define` for all that a type refers to.
-/

namespace OpenCrud.Generate

open Datamodel

/-! ## References -/

/-- The kinds of types that can be referred to in every datamodel. -/
def Kind.isPart : Kind → Bool
  | .query | .mutation | .node => false
  | _ => true

/-- The names that the answer to a request comes across: that of its subject and of what its fields point at, and
for a root type the names of the models. What is made for no type in particular has no name for its subject. -/
inductive Concerns (g : TypeGraph) (r : Request) : String → Prop
  | shared : Concerns g r ""
  | own : Concerns g r r.subject
  | related {t : ModelType} {f : ModelField} (ht : t ∈ g.types) (hr : t.name = r.subject) (hf : f ∈ t.fields) :
    Concerns g r f.typeName
  | model {t : ModelType} (hk : r.kind.isRoot = true) (ht : t ∈ g.models) : Concerns g r t.name

/-- What the answer to a request refers to. -/
inductive Refers (g : TypeGraph) (r : Request) : Handle → Prop
  | leaf {x : Handle} (hx : ∀ r', x ≠ .made r') : Refers g r x
  | node (h : g.models.any implementsNode = true) : Refers g r (.made (.shared .node))
  | made {r' : Request} (hk : r'.kind.isPart = true) (hname : Concerns g r r'.subject) : Refers g r (.made r')

/-- What a field of an object can have for its type. Only a root type has a field for items of any model. -/
structure OutputTarget (g : TypeGraph) (r : Request) (x : Handle) : Prop where
  refers : Refers g r x
  category : x.category ≠ .inputObject
  item : x = .made (.shared .node) → r.kind.isRoot = true

/-- The type of an argument. Arguments are no lists. -/
def ArgumentPart (g : TypeGraph) (r : Request) (e : TypeExpr Handle) : Prop :=
  ∃ x, (e = .named x ∨ e = .nonNull (.named x)) ∧ Refers g r x

/-- A field of an object: what its type and its arguments refer to. -/
structure OutputPart (g : TypeGraph) (r : Request) (field : OutputField Handle) : Prop where
  type : OutputTarget g r field.type.base
  args : ∀ argument ∈ field.args, ArgumentPart g r argument.2.type

section Refers

variable {g : TypeGraph} {r r' : Request}

theorem refers_scalar (scalar : Scalar) : Refers g r (.scalar scalar) := .leaf nofun

/-- No type refers to a root type. -/
theorem Refers.isRoot_eq_false (h : Refers g r (.made r')) : r'.kind.isRoot = false := by
  have hpart : ∀ k : Kind, k.isPart = true → k.isRoot = false := by
    intro k
    cases k <;> decide
  cases h with
  | leaf hx => exact absurd rfl (hx _)
  | node => rfl
  | made hk => exact hpart _ hk

/-- The interface of items is referred to only if some model has an identifier. -/
theorem Refers.any_implementsNode (h : Refers g r (.made (.shared .node))) : g.models.any implementsNode = true := by
  cases h with
  | leaf hx => exact absurd rfl (hx _)
  | node hany => exact hany
  | made hk => cases hk

theorem outputTarget_scalar (scalar : Scalar) : OutputTarget g r (.scalar scalar) where
  refers := refers_scalar scalar
  category := nofun
  item := nofun

theorem category_ne_inputObject {k : Kind} (hk : k.isInput = false) : k.category ≠ .inputObject := by
  have hcategory : ∀ k : Kind, k.isInput = false → k.category ≠ .inputObject := by
    intro k
    cases k <;> decide
  exact hcategory k hk

/-- Inputs, and the values to order by, are parts that belong to a type of the datamodel. -/
theorem isPart_of_isInput {k : Kind} (hk : k.isInput = true ∨ k = .orderBy) : k.isPart = true := by
  have hpart : ∀ k : Kind, k.isInput = true ∨ k = .orderBy → k.isPart = true := by
    intro k
    cases k <;> decide
  exact hpart k hk

theorem outputPart_scalar {e : TypeExpr Handle} {scalar : Scalar} (he : e.base = .scalar scalar)
    (description : Option String) : OutputPart g r { type := e, description } where
  type := he ▸ outputTarget_scalar scalar
  args := List.forall_mem_nil _

theorem argumentPart_scalar (scalar : Scalar) : ArgumentPart g r (scalarType scalar) :=
  ⟨_, Or.inl rfl, refers_scalar scalar⟩

/-- A field refers to what it shows and to what its arguments take. -/
theorem OutputPart.refs {field : OutputField Handle} (hfield : OutputPart g r field) :
    ∀ y ∈ field.refs, Refers g r y := by
  refine List.forall_mem_cons.mpr ⟨hfield.type.refers, List.forall_mem_map.mpr fun argument hargument => ?_⟩
  obtain ⟨x, he | he, hx⟩ := hfield.args argument hargument
  · rw [he]
    exact hx
  · rw [he]
    exact hx

end Refers

/-! ## Types that are asked for -/

section Named

variable {g : TypeGraph} {r : Request} {name : String} (hname : Concerns g r name)

include hname

theorem outputTarget_made {k : Kind} (hk : k.isPart = true ∧ k.isInput = false) :
    OutputTarget g r (.made (.of k name)) where
  refers := .made hk.1 hname
  category := category_ne_inputObject hk.2
  item hnode := by
    cases hnode
    cases hk.1

/-- An argument takes an input as it is, or must be given one. -/
theorem argumentPart_input {k : Kind} (hk : k.isInput = true ∨ k = .orderBy) {e : TypeExpr Handle}
    (he : e = .named (.made (.of k name)) ∨ e = .nonNull (.named (.made (.of k name)))) : ArgumentPart g r e :=
  ⟨_, he, .made (isPart_of_isInput hk) hname⟩

omit hname in
/-- What is asked for is the type made for the request, or absent. -/
theorem gives_type (r : Request) (hk : r.kind ≠ .scalar) :
    Gives (fun x => x = .made r ∨ x = .absent) (Ask.type (fresh g) r) := by
  refine (gives_fresh hk).bind fun made hmade => gives_ok ?_
  cases made with
  | none => exact Or.inr rfl
  | some x => exact Or.inl (hmade x rfl)

omit hname in
theorem outputTarget_absent : OutputTarget g r .absent := ⟨.leaf nofun, nofun, nofun⟩

/-- What a field shows was made for a request about the type that it shows, or does not exist. -/
theorem gives_outputTarget (k : Kind) (hk : k.isPart = true ∧ k.isInput = false ∧ k ≠ .scalar) :
    Gives (OutputTarget g r) (Ask.type (fresh g) (.of k name)) := by
  obtain ⟨hpart, hinput, hscalar⟩ := hk
  intro x hx
  rcases gives_type (.of k name) hscalar x hx with rfl | rfl
  · exact outputTarget_made hname ⟨hpart, hinput⟩
  · exact outputTarget_absent

omit hname in
theorem argumentPart_pageArgs : ∀ argument ∈ pageArgs, ArgumentPart g r argument.2.type := by
  simp only [pageArgs, List.forall_mem_cons]
  exact ⟨argumentPart_scalar _, argumentPart_scalar _, argumentPart_scalar _, argumentPart_scalar _,
    argumentPart_scalar _, List.forall_mem_nil _⟩

/-- The arguments of a list: a filter, an order and the position in the list. -/
theorem gives_manyArgParts :
    Gives (fun args => ∀ argument ∈ args, ArgumentPart g r argument.2.type) (manyArgs (fresh g) name) := by
  have hmade : ∀ {k : Kind} {label : String} {made : Option Handle}, k.isInput = true ∨ k = .orderBy →
      (∀ x ∈ made, x = .made (.of k name)) →
        ∀ argument ∈ argIfMade label made, ArgumentPart g r argument.2.type := by
    intro k label made hk hmade
    cases made with
    | none => exact List.forall_mem_nil _
    | some x =>
      rw [hmade x rfl]
      exact List.forall_mem_singleton.mpr (argumentPart_input hname hk (Or.inl rfl))
  refine (gives_fresh (r := .of .whereInput name) nofun).bind fun filter hfilter => ?_
  refine (gives_fresh (r := .of .orderBy name) nofun).bind fun order horder => gives_ok ?_
  refine List.forall_mem_append.mpr ⟨List.forall_mem_append.mpr ⟨?_, ?_⟩, argumentPart_pageArgs⟩
  · exact hmade (Or.inl rfl) hfilter
  · exact hmade (Or.inr rfl) horder

/-! ## Pages and root fields -/

theorem gives_edgeParts :
    Gives (fun fields => ∀ entry ∈ fields, OutputPart g r entry.2) (edgeFields (fresh g) name) := by
  refine (gives_outputTarget hname .object (by decide)).bind fun object hobject => ?_
  refine gives_ok (List.forall_mem_cons.mpr ⟨⟨hobject, List.forall_mem_nil _⟩, ?_⟩)
  exact List.forall_mem_singleton.mpr (outputPart_scalar rfl _)

theorem gives_connectionParts :
    Gives (fun fields => ∀ entry ∈ fields, OutputPart g r entry.2) (connectionFields (fresh g) name) := by
  refine (gives_outputTarget (r := r) .shared .pageInfo (by decide)).bind fun pageInfo hpageInfo => ?_
  refine (gives_outputTarget hname .edge (by decide)).bind fun edge hedge => ?_
  refine (gives_outputTarget hname .aggregate (by decide)).bind fun aggregate haggregate => ?_
  refine gives_ok (List.forall_mem_cons.mpr ⟨⟨hpageInfo, List.forall_mem_nil _⟩, ?_⟩)
  refine List.forall_mem_cons.mpr ⟨⟨hedge, List.forall_mem_nil _⟩, ?_⟩
  exact List.forall_mem_singleton.mpr ⟨haggregate, List.forall_mem_nil _⟩

theorem gives_modelQueryParts :
    Gives (fun fields => ∀ entry ∈ fields, OutputPart g r entry.2) (modelQueries (fresh g) name) := by
  refine (gives_outputTarget hname .object (by decide)).bind fun object hobject => ?_
  refine (gives_manyArgParts hname).bind fun args hargs => ?_
  refine (gives_fresh (r := .of .whereUnique name) nofun).bind fun unique hunique => ?_
  refine (gives_outputTarget hname .connection (by decide)).bind fun connection hconnection => ?_
  refine (gives_manyArgParts hname).bind fun pageArgs hpageArgs => gives_ok fun entry hentry => ?_
  rcases List.mem_append.mp (FieldMap.mem_of_mem_ofEntries hentry) with hentry | hentry
  · rcases List.mem_cons.mp hentry with rfl | hentry
    · exact ⟨hobject, hargs⟩
    · obtain ⟨x, hx, rfl⟩ := List.mem_map.mp hentry
      rw [hunique x (Option.mem_toList.mp hx)]
      refine ⟨hobject, List.forall_mem_singleton.mpr ?_⟩
      exact argumentPart_input hname (Or.inl rfl) (Or.inr rfl)
  · rw [List.mem_singleton.mp hentry]
    exact ⟨hconnection, hpageArgs⟩

/-- The mutations of a model refer to its own inputs. -/
theorem outputPart_promisedMutations {t : ModelType} (ht : name = t.name) :
    ∀ entry ∈ promisedMutations g t, OutputPart g r entry.2 := by
  subst ht
  have hitem : OutputTarget g r (.made (.of .object t.name)) := outputTarget_made hname (by decide)
  have hmany : OutputTarget g r (.made (.shared .batchPayload)) := outputTarget_made .shared (by decide)
  have hinput : ∀ {label : String} {k : Kind}, k.isInput = true → ArgumentPart g r (inputOf t label k).2.type :=
    fun hk => argumentPart_input hname (Or.inl hk) (Or.inr rfl)
  have hfilter : ArgumentPart g r (filterOf t).2.type := argumentPart_input hname (Or.inl rfl) (Or.inl rfl)
  have hif : ∀ {b : Bool} {field : String × OutputField Handle}, OutputPart g r field.2 →
      ∀ entry ∈ (if b then [field] else []), OutputPart g r entry.2 := by
    intro b field hfield
    cases b with
    | true => exact List.forall_mem_singleton.mpr hfield
    | false => exact List.forall_mem_nil _
  simp only [promisedMutations, List.forall_mem_append, List.forall_mem_singleton]
  refine ⟨⟨⟨⟨⟨⟨hitem, ?_⟩, hif ⟨hitem, ?_⟩⟩, hif ⟨hmany, ?_⟩⟩, hif ⟨hitem, ?_⟩⟩, hif ⟨hitem, ?_⟩⟩, hmany, ?_⟩
  · dsimp only
    split
    · exact List.forall_mem_singleton.mpr (hinput rfl)
    · exact List.forall_mem_nil _
  · exact List.forall_mem_cons.mpr ⟨hinput rfl, List.forall_mem_singleton.mpr (hinput rfl)⟩
  · exact List.forall_mem_cons.mpr ⟨hinput rfl, List.forall_mem_singleton.mpr hfilter⟩
  · exact List.forall_mem_cons.mpr ⟨hinput rfl, List.forall_mem_cons.mpr
      ⟨hinput rfl, List.forall_mem_singleton.mpr (hinput rfl)⟩⟩
  · exact List.forall_mem_singleton.mpr (hinput rfl)
  · exact List.forall_mem_singleton.mpr hfilter

end Named

section Root

variable {g : TypeGraph} {r : Request} (hr : r.kind.isRoot = true)

include hr

theorem gives_queryParts :
    Gives (fun fields => ∀ entry ∈ fields, OutputPart g r entry.2) (queryFields g (fresh g)) := by
  have hblocks : Gives (fun blocks => ∀ block ∈ blocks, ∀ entry ∈ block, OutputPart g r entry.2)
      (g.models.mapM fun t => modelQueries (fresh g) t.name) :=
    Gives.mapM fun t ht => gives_modelQueryParts (.model hr ht)
  refine hblocks.bind fun blocks hblocks => ?_
  have hfields : ∀ entry ∈ FieldMap.ofEntries blocks.flatten, OutputPart g r entry.2 := by
    intro entry hentry
    obtain ⟨block, hblock, hentry⟩ := List.mem_flatten.mp (FieldMap.mem_of_mem_ofEntries hentry)
    exact hblocks block hblock entry hentry
  dsimp only
  split
  · rename_i hany
    have hnode : Gives (OutputTarget g r) (Ask.type (fresh g) (.shared .node)) := by
      intro x hx
      rcases gives_type (.shared .node) nofun x hx with rfl | rfl
      · exact ⟨.node hany, nofun, fun _ => hr⟩
      · exact outputTarget_absent
    refine hnode.bind fun node hnode => gives_ok fun entry hentry => ?_
    rcases FieldMap.mem_of_mem_insert hentry with rfl | hentry
    · exact ⟨hnode, List.forall_mem_singleton.mpr ⟨_, Or.inr rfl, refers_scalar .id⟩⟩
    · exact hfields entry hentry
  · exact gives_ok hfields

theorem gives_mutationParts (h : WellFormed g.types) :
    Gives (fun fields => ∀ entry ∈ fields, OutputPart g r entry.2) (allMutations g (fresh g)) := by
  intro fields hfields
  rw [((allMutations_eq_ok_iff h).mp hfields).2]
  intro entry hentry
  obtain ⟨t, ht, hentry⟩ := List.mem_flatMap.mp hentry
  exact outputPart_promisedMutations (.model hr ht) rfl entry hentry

end Root

/-! ## Fields of items -/

theorem base_requiredIf (required : Bool) (e : TypeExpr Handle) : (requiredIf required e).base = e.base := by
  cases required <;> rfl

theorem base_withModifiers (f : ModelField) (x : Handle) : (withModifiers f (.named x)).base = x := by
  unfold withModifiers
  split
  · rfl
  · exact base_requiredIf _ _

section Items

variable {g : TypeGraph} (h : WellFormed g.types) {r : Request}

/-- A scalar or an enum that a field of the datamodel points at can be shown. -/
theorem outputTarget_leaf {f : ModelField} (hname : Concerns g r f.typeName) {x : Handle} (hx : IsLeafTarget g f x) :
    OutputTarget g r x := by
  obtain ⟨scalar, _, rfl⟩ | ⟨u, _, _, htype, rfl⟩ := hx
  · exact outputTarget_scalar scalar
  · exact outputTarget_made (htype ▸ hname) (by decide)

include h

theorem gives_leafPart {t : ModelType} (ht : t ∈ g.types) (hr : t.name = r.subject) {f : ModelField}
    (hf : f ∈ t.fields) (hleaf : isLeafOf g f = true) :
    Gives (fun entry : String × OutputField Handle => OutputPart g r entry.2)
      (do return (f.name, { type := ← outputType (fresh g) f, description := f.description })) := by
  have houtput : Gives (fun e => OutputTarget g r e.base) (outputType (fresh g) f) := by
    refine (gives_optionalType h ht hf hleaf).bind fun e he => gives_ok ?_
    rw [base_requiredIf]
    obtain ⟨x, hx, rfl | rfl⟩ := he
    · exact outputTarget_leaf (.related ht hr hf) hx
    · exact outputTarget_leaf (.related ht hr hf) hx
  exact houtput.bind fun e he => gives_ok ⟨he, List.forall_mem_nil _⟩

/-- A field of an object shows a leaf or an object, as the field of the datamodel points at one. -/
theorem gives_objectPart {t : ModelType} (ht : t ∈ g.types) (hr : t.name = r.subject) {f : ModelField}
    (hf : f ∈ t.fields) : Gives (fun entry => OutputPart g r entry.2) (objectField g (fresh g) f) := by
  unfold objectField
  rw [ofExcept_eq]
  rcases target_of_mem h ht hf with ⟨scalar, _, htarget⟩ | ⟨u, _, _, _, htarget⟩ | ⟨u, hu, hrelated, _, _, htarget⟩
  · rw [htarget]
    exact gives_leafPart h ht hr hf (by rw [isLeafOf, htarget]; rfl)
  · rw [htarget]
    exact gives_leafPart h ht hr hf (by rw [isLeafOf, htarget]; rfl)
  · have hname : Concerns g r u.name := hrelated ▸ .related ht hr hf
    rw [htarget, ok_bind]
    refine (gives_outputTarget hname .object (by decide)).bind fun object hobject => ?_
    have hbase := base_withModifiers f object
    have hfield : ∀ {args : FieldMap (InputField Handle)}, (∀ argument ∈ args, ArgumentPart g r argument.2.type) →
        OutputPart g r { type := withModifiers f (.named object), args, description := f.description } :=
      fun hargs => ⟨hbase.symm ▸ hobject, hargs⟩
    dsimp only
    split
    · exact (gives_manyArgParts hname).bind fun args hargs => gives_ok (hfield hargs)
    · exact gives_ok (hfield (List.forall_mem_nil _))

/-- What the fields of an object refer to. -/
theorem gives_outputParts (r : Request) :
    Gives (fun fields => ∀ entry ∈ fields, OutputPart g r entry.2) (outputFields g (fresh g) r) := by
  obtain ⟨kind, subject, args⟩ := r
  cases kind
  case object =>
    intro fields hfields
    obtain ⟨t, hsubject, hfields⟩ := bind_eq_ok_iff.mp hfields
    obtain ⟨ht, hname⟩ := mem_of_subject hsubject
    have hentries : Gives (fun entries => ∀ entry ∈ entries, OutputPart g ⟨.object, subject, args⟩ entry.2)
        (t.fields.mapM (objectField g (fresh g))) :=
      Gives.mapM fun f hf => gives_objectPart h ht hname hf
    refine hentries.bind (Q := fun fields => ∀ entry ∈ fields, OutputPart g ⟨.object, subject, args⟩ entry.2)
      (fun entries hentries => ?_) fields hfields
    exact gives_ok fun entry hentry => hentries entry (FieldMap.mem_of_mem_ofEntries hentry)
  -- The other kinds have the same fields whatever the datamodel is, or fields for the models.
  case node => exact gives_ok (List.forall_mem_singleton.mpr (outputPart_scalar rfl _))
  case pageInfo =>
    refine gives_ok ?_
    simp only [pageInfoFields, List.forall_mem_cons]
    exact ⟨outputPart_scalar rfl _, outputPart_scalar rfl _, outputPart_scalar rfl _, outputPart_scalar rfl _,
      List.forall_mem_nil _⟩
  case batchPayload =>
    have hlong : Ask.type (fresh g) (.of .scalar Scalar.long.name) = .ok (.scalar .long) := by
      rw [Ask.type, fresh_scalar h]
      rfl
    simp only [outputFields, batchPayloadFields, hlong, ok_bind]
    exact gives_ok (List.forall_mem_singleton.mpr (outputPart_scalar rfl _))
  case edge => exact gives_edgeParts .own
  case aggregate => exact gives_ok (List.forall_mem_singleton.mpr (outputPart_scalar rfl _))
  case connection => exact gives_connectionParts .own
  case query => exact gives_queryParts rfl
  case mutation => exact gives_mutationParts rfl h
  all_goals exact gives_ok (List.forall_mem_nil _)

/-! ## Interfaces and inputs -/

omit h in
/-- Items that are found by their identifiers are those of a model. -/
theorem mem_models_of_implementsNode (h : WellFormed g.types) {t : ModelType} (ht : t ∈ g.types)
    (hnode : implementsNode t = true) : t ∈ g.models := by
  rw [implementsNode, Bool.and_eq_true] at hnode
  refine List.mem_filter.mpr ⟨ht, ?_⟩
  rw [ModelType.isModel, hnode.1, Bool.and_true]
  cases henum : t.isEnum with
  | false => rfl
  | true =>
    rw [ModelType.idField?, (h.type t ht).fields_eq_nil henum] at hnode
    cases hnode.2

/-- Only an object of items that are found by their identifiers has an interface, which is theirs. -/
theorem exists_of_interfaces {r : Request} {implemented : List Handle}
    (hmade : interfaces g (fresh g) r = .ok implemented) {y : Handle} (hy : y ∈ implemented) :
    r.kind = .object ∧ y = .made (.shared .node) ∧ ∃ t ∈ g.models, subject g r = .ok t ∧ implementsNode t = true := by
  unfold interfaces at hmade
  split at hmade
  · rename_i hkind
    obtain ⟨t, hsubject, hmade⟩ := bind_eq_ok_iff.mp hmade
    have ht := (mem_of_subject hsubject).1
    unfold objectInterfaces at hmade
    split at hmade
    · rename_i hnode
      rw [Ask.type, fresh_shared h rfl] at hmade
      cases hmade
      rw [ofExcept_eq] at hsubject
      exact ⟨hkind, List.mem_singleton.mp hy, t, mem_models_of_implementsNode h ht hnode, hsubject, hnode⟩
    · cases hmade
      cases hy
  · cases hmade
    cases hy

omit h in
/-- What an input mentions belongs to its own type or to one that its fields point at. -/
theorem refers_of_mentions {t : ModelType} (ht : t ∈ g.types) (hr : t.name = r.subject) {x : Handle}
    (hx : Mentions g t x) : Refers g r x := by
  cases hx with
  | absent => exact .leaf nofun
  | flag => exact refers_scalar .boolean
  | leaf hf hx => exact (outputTarget_leaf (.related ht hr hf) hx).refers
  | own hk hown => exact .made (isPart_of_isInput (Or.inl hk)) (hown.trans hr ▸ .own)
  | related hf hk hrelated => exact .made (isPart_of_isInput (Or.inl hk)) (hrelated ▸ .related ht hr hf)

omit h in
/-- The parts of an input are what the generator of its fields makes. -/
theorem inputs_of_define {d : NamedType Handle} (hk : r.kind.isInput = true)
    (hd : define g (fresh g) (.made r) = .ok d) : ∃ t ∈ g.types, t.name = r.subject ∧
      ∃ fields, inputFields g (fresh g) r t = .ok fields ∧ d.body = .inputObject fields := by
  obtain ⟨b, hb, hd⟩ := bind_eq_ok_iff.mp hd
  cases hd
  rw [body_input hk] at hb
  obtain ⟨t, hsubject, hb⟩ := bind_eq_ok_iff.mp hb
  obtain ⟨made, hmade, hb⟩ := bind_eq_ok_iff.mp hb
  obtain ⟨fields, hchecked, hb⟩ := bind_eq_ok_iff.mp hb
  cases hb
  obtain ⟨ht, hname⟩ := mem_of_subject hsubject
  exact ⟨t, ht, hname, fields, checkFieldNames_resolving hmade hchecked, rfl⟩

omit h in
/-- The only interface has no interfaces itself. -/
theorem eq_nil_of_define {d : NamedType Handle} (hd : define g (fresh g) (.made r) = .ok d)
    {implemented : List Handle} {fields : FieldMap (OutputField Handle)}
    (hbody : d.body = .interface implemented fields) : implemented = [] := by
  have hkind : ∀ k : Kind, k.category = .interface → k = .node := by
    intro k
    cases k <;> decide
  obtain ⟨kind, subject, args⟩ := r
  obtain rfl : kind = .node := hkind kind ((category_of_define hd).symm.trans (by rw [Client.Category.of, hbody]))
  obtain ⟨b, hb, hd⟩ := bind_eq_ok_iff.mp hd
  cases hd
  obtain ⟨_, _, hb⟩ := bind_eq_ok_iff.mp hb
  obtain ⟨_, _, hb⟩ := bind_eq_ok_iff.mp hb
  cases hb
  cases hbody
  rfl

/-! ## Main result -/

/-- What the answer to a request refers to. -/
theorem refers_of_define {d : NamedType Handle} (hd : define g (fresh g) (.made r) = .ok d) :
    ∀ y ∈ d.body.refs, Refers g r y := by
  obtain ⟨hfields, hinterfaces⟩ := outputs_of_define hd
  have hparts := gives_outputParts h r _ hfields
  cases hbody : d.body with
  | scalar | enum => exact List.forall_mem_nil _
  | object implemented fields =>
    rw [hbody] at hparts
    refine List.forall_mem_append.mpr ⟨fun y hy => ?_, fun y hy => ?_⟩
    · obtain ⟨_, rfl, t, ht, _, hnode⟩ := exists_of_interfaces h (hinterfaces _ _ hbody) hy
      exact .node (List.any_eq_true.mpr ⟨t, ht, hnode⟩)
    · obtain ⟨entry, hentry, hy⟩ := List.mem_flatMap.mp hy
      exact (hparts entry hentry).refs y hy
  | interface implemented fields =>
    rw [hbody] at hparts
    rw [eq_nil_of_define hd hbody]
    intro y hy
    obtain ⟨entry, hentry, hy⟩ := List.mem_flatMap.mp hy
    exact (hparts entry hentry).refs y hy
  | union members =>
    -- No type that is made is a union.
    have hkind : ∀ k : Kind, k.category ≠ .union := by
      intro k
      cases k <;> decide
    exact absurd ((category_of_define hd).symm.trans (by rw [Client.Category.of, hbody])) (hkind _)
  | inputObject fields isOneOf =>
    have hk : r.kind.isInput = true := isInput_of_define hd (by rw [hbody]; rfl)
    obtain ⟨t, ht, hname, fields', hmade, hinput⟩ := inputs_of_define hk hd
    obtain ⟨rfl, _⟩ := TypeBody.inputObject.inj (hbody.symm.trans hinput)
    refine List.forall_mem_map.mpr fun entry hentry => ?_
    exact refers_of_mentions ht hname ((gives_inputParts h ht r _ hmade).part entry hentry).mentions

end Items

end OpenCrud.Generate
