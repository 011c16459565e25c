import OpenCrud.Client.Source
import OpenCrud.Proofs.Client.Pieces

/-!
# The text of a client in pieces

Every declaration of a type in pieces, and then the text of a client as a whole. Put together the pieces are the
text (`renderPieces_sourcePieces`), so the names in them are those that the text exports (`exportedNames_eq`) and
those that it mentions.
-/

namespace OpenCrud.Client

/-! ## Declarations of types -/

/-- The pieces of an interface with parents and members. -/
def interfacePieces (description : Option String) (name : String) (parents members : List (List Piece)) :
    List Piece :=
  [.text (describe description), .interface name] ++
    (if parents.isEmpty then [] else .text " extends " :: joinPieces ", " parents) ++
    wrapPieces " \x7b\n" (joinPieces "\n" members) "\n\x7d"

/-- An interface has the text of its heading, of what it extends and of its members. -/
theorem renderPieces_interfacePieces {d : InterfaceDecl} {parents members : List (List Piece)}
    (hparents : parents.map renderPieces = d.parents)
    (hmembers : members.map renderPieces = d.members.map Member.render) :
    renderPieces (interfacePieces d.description d.name parents members) = d.render := by
  have hempty : parents.isEmpty = d.parents.isEmpty := by
    rw [← hparents, List.isEmpty_map]
  delta interfacePieces InterfaceDecl.render
  simp only [renderPieces_append, renderPieces_text_cons, renderPieces_interface_cons, renderPieces_wrapPieces,
    renderPieces_joinPieces, renderPieces_nil, apply_ite renderPieces, hparents, hmembers, hempty,
    String.append_assoc, String.append_empty]

/-- The pieces of a member of a node or a promise. -/
def memberPieces (s : Schema) (isNode : Bool) (entry : String × OutputField String) : List Piece :=
  wrapPieces ("  " ++ fieldLabel isNode entry.1 entry.2.type ++ ": ")
    (outputFieldPieces s { isNode, isFunction := true } false entry.1 entry.2) ","

/-- The pieces of a type as a node or as a promise of one. -/
def shapePieces (s : Schema) (isNode : Bool) (t : NamedType String) : List Piece :=
  let implemented := match t.body with
    | .object interfaces _ => interfaces
    | _ => []
  interfacePieces t.description (if isNode then nodeName t.name else t.name)
    ((if isNode then [] else [promisePieces [.mention (nodeName t.name)]]) ++ implemented.map ([.mention ·]))
    ((shownFields s isNode t.body.outputFields).map (memberPieces s isNode))

theorem renderPieces_shapePieces (s : Schema) (isNode : Bool) (t : NamedType String) :
    renderPieces (shapePieces s isNode t) = (interfaceOf s isNode t).render := by
  refine renderPieces_interfacePieces (d := interfaceOf s isNode t) ?_ ?_
  · have hnames : ∀ names : List String, (names.map fun name => [Piece.mention name]).map renderPieces = names := by
      intro names
      rw [List.map_map]
      exact (List.map_congr_left fun name _ => renderPieces_mention name).trans (List.map_id _)
    cases isNode with
    | true => exact hnames _
    | false =>
      rw [List.map_append, hnames]
      refine congrArg (· ++ _) (congrArg (· :: []) ?_)
      exact (renderPieces_promisePieces _).trans (congrArg promise (renderPieces_mention _))
  · rw [interfaceOf, List.map_map, List.map_map]
    refine List.map_congr_left fun entry _ => ?_
    exact (renderPieces_wrapPieces _ _ _).trans (by rw [renderPieces_outputFieldPieces]; rfl)

/-- The pieces of a member of an input. -/
def inputMemberPieces (entry : String × InputField String) : List Piece :=
  wrapPieces ("  " ++ (entry.1 ++ optionalMark (!entry.2.type.isNonNull)) ++ ": ") (inputFieldPieces entry.2.type) ","

/-- The pieces of an input. -/
def inputPieces (t : NamedType String) (fields : FieldMap (InputField String)) : List Piece :=
  interfacePieces t.description t.name [] (fields.map inputMemberPieces)

theorem renderPieces_inputPieces (t : NamedType String) (fields : FieldMap (InputField String)) :
    renderPieces (inputPieces t fields) = (inputInterface t fields).render := by
  refine renderPieces_interfacePieces (d := inputInterface t fields) rfl ?_
  rw [inputInterface, List.map_map, List.map_map]
  refine List.map_congr_left fun entry _ => ?_
  exact (renderPieces_wrapPieces _ _ _).trans (by rw [renderPieces_inputFieldPieces]; rfl)

/-- The pieces of a declaration by another type. -/
def aliasPieces (name type : String) : List Piece := [.type name, .text (" = " ++ type)]

theorem renderPieces_aliasPieces (name type : String) :
    renderPieces (aliasPieces name type) = typeAlias name type := by
  delta aliasPieces typeAlias
  simp only [renderPieces_type_cons, renderPieces_text, String.append_assoc]

/-- The pieces of the declaration of a scalar. -/
def scalarPieces (language : Language) (t : NamedType String) : List Piece :=
  let type := language.typeOfScalarNamed t.name
  .text (comment t.description) ::
    if t.name = Scalar.id.name then
      aliasPieces "ID_Input" type ++ .text "\n" :: aliasPieces "ID_Output" "string"
    else aliasPieces t.name type

theorem renderPieces_scalarPieces (language : Language) (t : NamedType String) :
    renderPieces (scalarPieces language t) = declareScalar language t := by
  unfold scalarPieces declareScalar
  rw [renderPieces_text_cons]
  split
  · simp only [renderPieces_append, renderPieces_aliasPieces, renderPieces_text_cons, String.append_assoc]
  · rw [renderPieces_aliasPieces]

/-- The pieces of the declaration of a type. -/
def declarePieces (language : Language) (s : Schema) (t : NamedType String) : List Piece :=
  match t.body with
  | .scalar _ => scalarPieces language t
  | .enum values =>
    [.text (describe t.description), .type t.name,
     .text (" =\n" ++ " |\n".intercalate (values.keys.map fun value => "  '" ++ value ++ "'"))]
  | .object _ _ => shapePieces s true t ++ .text "\n\n" :: shapePieces s false t
  | .interface _ _ => shapePieces s true t
  | .union members =>
    [.text (describe t.description), .type t.name, .text " = "] ++ joinPieces " | " (members.map ([.mention ·]))
  | .inputObject fields _ => inputPieces t fields

/-- A declaration has the text that the program writes for it, whichever kind its type is of. -/
theorem renderPieces_declarePieces (language : Language) (s : Schema) (t : NamedType String) :
    renderPieces (declarePieces language s t) = declare language s t := by
  unfold declarePieces declare
  cases t.body with
  | scalar => exact renderPieces_scalarPieces language t
  | enum values =>
    simp only [renderPieces_text_cons, renderPieces_type_cons, renderPieces_nil, declareEnum,
      String.append_assoc, String.append_empty]
  | object interfaces fields =>
    simp only [renderPieces_append, renderPieces_text_cons, renderPieces_shapePieces, declareObject,
      String.append_assoc]
  | interface interfaces fields => exact renderPieces_shapePieces s true t
  | union members =>
    have hmembers := renderPieces_joinPieces_map renderPieces_mention " | " members
    rw [List.map_id'] at hmembers
    delta declareUnion typeAlias
    simp only [renderPieces_append, renderPieces_text_cons, renderPieces_type_cons, renderPieces_nil, hmembers,
      String.append_assoc, String.append_empty]
  | inputObject fields isOneOf => exact renderPieces_inputPieces t fields

/-! ## The whole text -/

/-- The pieces of the check whether there is an item of a type that a filter selects. -/
def existsEntryPieces (language : Language) (entry : String × String) : List Piece :=
  match language with
  | .typescript =>
    [.text "  ", .mention entry.1, .text ": (where?: ", .mention entry.2, .text ") => Promise<boolean>"]
  | .flow => [.text "  ", .mention entry.1, .text "(where?: ", .mention entry.2, .text "): Promise<boolean>;"]

/-- The pieces of the existence checks of a client. -/
def existsPieces (language : Language) (s : Schema) : List Piece :=
  joinPieces "\n" ((filteredTypes (rootFields s s.query)).map (existsEntryPieces language))

/-- Pieces around a content, if it shows in the text. -/
def aroundPieces (before content : List Piece) (after : String) : List Piece :=
  if (renderPieces content).isEmpty then [] else before ++ content ++ [.text after]

/-- The pieces of the interface that clients have. -/
def clientPieces (s : Schema) : List Piece :=
  [.interface "Prisma",
   .text (" \x7b\n" ++
    "  $exists: Exists;\n" ++
    "  $request(query: string, variables?: \x7b[key: string]: any\x7d): Promise<any>;\n" ++
    "  $delegate: Delegate;\n" ++
    "  $getAbstractResolvers(filterSchema?: GraphQLSchema | string): IResolvers;\n")] ++
  aroundPieces [.text (heading "  " "Queries")] (rootPieces s s.query queryStyle) ";\n" ++
  aroundPieces [.text (heading "  " "Mutations")] (rootPieces s s.mutation mutationStyle) ";\n" ++
  [.text "\x7d\n"]

/-- The pieces of the interfaces of the delegates. -/
def delegatePieces (s : Schema) : List Piece :=
  [.interface "Delegate",
   .text (" \x7b\n" ++
    "  (parentInfo: GraphQLResolveInfo, mutation: string, args: any): Promise<any>;\n" ++
    (if (delegateQueries s).isEmpty then "" else "  query: DelegateQuery;\n") ++
    (if (delegateMutations s).isEmpty then "" else "  mutation: DelegateMutation;\n") ++
    "\x7d\n")] ++
  aroundPieces [.text "\n", .interface "DelegateQuery", .text " \x7b\n"]
    (rootPieces s s.query delegateQueryStyle) "\n\x7d\n" ++
  aroundPieces [.text "\n", .interface "DelegateMutation", .text " \x7b\n"]
    (rootPieces s s.mutation delegateMutationStyle) "\n\x7d\n"

/-- The pieces of the text of a client. -/
def sourcePieces (language : Language) (s : Schema) (types : List ModelType) (options : ClientOptions) :
    List Piece :=
  [.text (language.head ++ language.imports ++ "\n\n"), .interface "Exists"] ++
  wrapPieces " \x7b\n" (existsPieces language s) "\n\x7d\n\n" ++
  [.interface "Node", .text " \x7b\x7d\n\n"] ++
  clientPieces s ++ [.text "\n"] ++
  delegatePieces s ++ [.text "\n"] ++
  [.interface "BindingConstructor", .text "<T> \x7b\n  new(options?: BPOType): T\n\x7d\n",
   .text (heading "" "Type Defs" ++ typeDefs s ++ "\n" ++ heading "" "Types")] ++
  joinPieces "\n\n" ((declaredTypes s).map (declarePieces language s)) ++
  [.text ("\n" ++ around (heading "" "Model Metadata") (models types) "\n" ++
    heading "" "Client" ++ exports language options ++ "\n")]

theorem renderPieces_existsPieces (language : Language) (s : Schema) :
    renderPieces (existsPieces language s) = existenceChecks language s := by
  have hentry : ∀ entry : String × String,
      renderPieces (existsEntryPieces language entry) = language.existsEntry entry.1 entry.2 := by
    intro entry
    cases language with
    | _ =>
      delta existsEntryPieces Language.existsEntry
      simp only [renderPieces_text_cons, renderPieces_mention_cons, renderPieces_nil, String.append_assoc,
        String.append_empty]
  rw [existsPieces, renderPieces_joinPieces_map hentry, existenceChecks, rootFields]
  cases s.root? s.query with
  | none => rfl
  | some t => rfl

theorem renderPieces_aroundPieces (before content : List Piece) (after : String) :
    renderPieces (aroundPieces before content after) =
      around (renderPieces before) (renderPieces content) after := by
  unfold aroundPieces around
  split
  · rfl
  · rw [renderPieces_append, renderPieces_append, renderPieces_text]

/-- A heading of an interface is the word for it and a name. -/
theorem interface_heading :
    "export interface Exists \x7b\n" = "export interface " ++ ("Exists" ++ " \x7b\n") ∧
    "export interface Node \x7b\x7d\n\n" = "export interface " ++ ("Node" ++ " \x7b\x7d\n\n") ∧
    "export interface Prisma \x7b\n" = "export interface " ++ ("Prisma" ++ " \x7b\n") ∧
    "export interface Delegate \x7b\n" = "export interface " ++ ("Delegate" ++ " \x7b\n") ∧
    "export interface BindingConstructor<T> \x7b\n  new(options?: BPOType): T\n\x7d\n" =
      "export interface " ++ ("BindingConstructor" ++ "<T> \x7b\n  new(options?: BPOType): T\n\x7d\n") := by
  decide

theorem renderPieces_clientPieces (s : Schema) : renderPieces (clientPieces s) = clientInterface s := by
  obtain ⟨_, _, hprisma, _⟩ := interface_heading
  have hqueries : rootMethods s s.query queryStyle = queries s := rfl
  have hmutations : rootMethods s s.mutation mutationStyle = mutations s := rfl
  delta clientPieces clientInterface
  simp only [hprisma, renderPieces_append, renderPieces_interface_cons, renderPieces_text_cons, renderPieces_nil,
    renderPieces_aroundPieces, renderPieces_rootPieces, hqueries, hmutations, String.append_assoc,
    String.append_empty]

theorem renderPieces_delegatePieces (s : Schema) : renderPieces (delegatePieces s) = delegateInterfaces s := by
  obtain ⟨_, _, _, hdelegate, _⟩ := interface_heading
  have hquery : renderPieces [.text "\n", .interface "DelegateQuery", .text " \x7b\n"] =
      "\nexport interface DelegateQuery \x7b\n" := by
    decide
  have hmutation : renderPieces [.text "\n", .interface "DelegateMutation", .text " \x7b\n"] =
      "\nexport interface DelegateMutation \x7b\n" := by
    decide
  have hqueries : rootMethods s s.query delegateQueryStyle = delegateQueries s := rfl
  have hmutations : rootMethods s s.mutation delegateMutationStyle = delegateMutations s := rfl
  delta delegatePieces delegateInterfaces
  simp only [hdelegate, hquery, hmutation, renderPieces_append, renderPieces_interface_cons,
    renderPieces_text_cons, renderPieces_nil, renderPieces_aroundPieces, renderPieces_rootPieces, hqueries,
    hmutations, String.append_assoc, String.append_empty]

theorem renderPieces_declareAll (language : Language) (s : Schema) :
    renderPieces (joinPieces "\n\n" ((declaredTypes s).map (declarePieces language s))) = declareAll language s :=
  renderPieces_joinPieces_map (renderPieces_declarePieces language s) _ _

/-- The pieces put together are the text. -/
theorem renderPieces_sourcePieces (language : Language) (s : Schema) (types : List ModelType)
    (options : ClientOptions) :
    renderPieces (sourcePieces language s types options) = source language s types options := by
  obtain ⟨hexists, hnode, _, _, hconstructor⟩ := interface_heading
  delta source sourcePieces
  simp only [hexists, hnode, hconstructor, renderPieces_append, renderPieces_wrapPieces, renderPieces_existsPieces,
    renderPieces_clientPieces, renderPieces_delegatePieces, renderPieces_declareAll, renderPieces_nil,
    renderPieces_text_cons, renderPieces_interface_cons, String.append_assoc, String.append_empty]

/-! ## What the pieces are -/

section Forall

variable {P : Piece → Prop} (htext : ∀ content, P (.text content))

include htext

/-- An interface exports its name and mentions what its parents and its members do. -/
theorem forall_mem_interfacePieces {description : Option String} {name : String} {parents members : List (List Piece)}
    (hname : P (.interface name)) (hparents : ∀ ps ∈ parents, ∀ p ∈ ps, P p)
    (hmembers : ∀ ps ∈ members, ∀ p ∈ ps, P p) :
    ∀ p ∈ interfacePieces description name parents members, P p := by
  have hhead : ∀ p ∈ if parents.isEmpty then [] else Piece.text " extends " :: joinPieces ", " parents, P p := by
    split
    · exact nofun
    · exact List.forall_mem_cons.mpr ⟨htext _, forall_mem_joinPieces htext hparents _⟩
  delta interfacePieces
  simp only [List.forall_mem_append, List.forall_mem_cons]
  exact ⟨⟨⟨htext _, hname, nofun⟩, hhead⟩,
    forall_mem_wrapPieces htext (forall_mem_joinPieces htext hmembers _) _ _⟩

variable {s : Schema} {t : NamedType String}

/-- A shape exports one name. It mentions the interfaces it implements and the types of its fields. -/
theorem forall_mem_shapePieces {isNode : Bool} (hname : P (.interface (if isNode then nodeName t.name else t.name)))
    (hnode : isNode = false → P (.mention (nodeName t.name)))
    (himplemented : ∀ interfaces fields, t.body = .object interfaces fields → ∀ n ∈ interfaces, P (.mention n))
    (hfields : ∀ entry ∈ t.body.outputFields,
      P (.mention (shapeName s { isNode, isFunction := true } entry.2.type)) ∧
        ∀ argument ∈ entry.2.args, P (.mention (shapeName s {} argument.2.type))) :
    ∀ p ∈ shapePieces s isNode t, P p := by
  refine forall_mem_interfacePieces htext hname (List.forall_mem_append.mpr ⟨?_, ?_⟩) ?_
  · cases isNode with
    | true => exact nofun
    | false =>
      refine List.forall_mem_singleton.mpr (forall_mem_wrapPieces htext ?_ _ _)
      exact List.forall_mem_singleton.mpr (hnode rfl)
  · refine List.forall_mem_map.mpr fun n hn => List.forall_mem_singleton.mpr ?_
    cases hbody : t.body with
    | object interfaces fields =>
      rw [hbody] at hn
      exact himplemented interfaces fields hbody n hn
    | _ =>
      rw [hbody] at hn
      cases hn
  · refine List.forall_mem_map.mpr fun entry hentry => ?_
    obtain ⟨htype, hargs⟩ := hfields entry (List.mem_filter.mp hentry).1
    exact forall_mem_wrapPieces htext (forall_mem_outputFieldPieces htext htype hargs) _ _

theorem forall_mem_inputPieces {fields : FieldMap (InputField String)} (hname : P (.interface t.name))
    (hfields : ∀ entry ∈ fields, P (.mention (inputName entry.2.type.base))) : ∀ p ∈ inputPieces t fields, P p := by
  refine forall_mem_interfacePieces htext hname nofun (List.forall_mem_map.mpr fun entry hentry => ?_)
  exact forall_mem_wrapPieces htext (forall_mem_inputFieldPieces htext (hfields entry hentry)) _ _

theorem forall_mem_aroundPieces {before content : List Piece} (hbefore : ∀ p ∈ before, P p)
    (hcontent : ∀ p ∈ content, P p) (after : String) : ∀ p ∈ aroundPieces before content after, P p := by
  unfold aroundPieces
  split
  · exact nofun
  · exact List.forall_mem_append.mpr
      ⟨List.forall_mem_append.mpr ⟨hbefore, hcontent⟩, List.forall_mem_singleton.mpr (htext _)⟩

/-- A property of all text and of all declared names is one of all pieces, if the names that are mentioned in each
part have it. -/
theorem forall_mem_sourcePieces {language : Language} {types : List ModelType} {options : ClientOptions}
    (hinterface : ∀ name, P (.interface name))
    (hexists : ∀ pair ∈ filteredTypes (rootFields s s.query), P (.mention pair.1) ∧ P (.mention pair.2))
    (hqueries : ∀ style, ∀ p ∈ rootPieces s s.query style, P p)
    (hmutations : ∀ style, ∀ p ∈ rootPieces s s.mutation style, P p)
    (htypes : ∀ u ∈ declaredTypes s, ∀ p ∈ declarePieces language s u, P p) :
    ∀ p ∈ sourcePieces language s types options, P p := by
  have hchecks : ∀ p ∈ existsPieces language s, P p := by
    refine forall_mem_joinPieces htext (List.forall_mem_map.mpr fun pair hpair => ?_) _
    obtain ⟨hname, hfilter⟩ := hexists pair hpair
    cases language with
    | _ => simp only [existsEntryPieces, List.forall_mem_cons]; exact ⟨htext _, hname, htext _, hfilter, htext _, nofun⟩
  have haround : ∀ {before content : List Piece} {after : String}, (∀ p ∈ before, P p) → (∀ p ∈ content, P p) →
      ∀ p ∈ aroundPieces before content after, P p :=
    fun hbefore hcontent => forall_mem_aroundPieces htext hbefore hcontent _
  delta sourcePieces clientPieces delegatePieces
  simp only [List.forall_mem_append, List.forall_mem_cons, List.not_mem_nil, false_implies, implies_true, htext,
    hinterface, and_true, true_and]
  have hheadings : ∀ name : String, ∀ p ∈ [.text "\n", .interface name, .text " \x7b\n"], P p := fun name =>
    List.forall_mem_cons.mpr ⟨htext _, List.forall_mem_cons.mpr ⟨hinterface _, List.forall_mem_singleton.mpr (htext _)⟩⟩
  refine ⟨⟨⟨forall_mem_wrapPieces htext hchecks _ _, ?_, ?_⟩, ?_, ?_⟩, ?_⟩
  · exact haround (List.forall_mem_singleton.mpr (htext _)) (hqueries _)
  · exact haround (List.forall_mem_singleton.mpr (htext _)) (hmutations _)
  · exact haround (hheadings _) (hqueries _)
  · exact haround (hheadings _) (hmutations _)
  · exact forall_mem_joinPieces htext (List.forall_mem_map.mpr htypes) _

end Forall

section Mentioned

variable {language : Language} {s : Schema} {types : List ModelType} {options : ClientOptions}

/-- Every declared type is written into the source. -/
theorem mem_sourcePieces_of_declared {u : NamedType String} (hu : u ∈ declaredTypes s) {p : Piece}
    (hp : p ∈ declarePieces language s u) : p ∈ sourcePieces language s types options := by
  delta sourcePieces
  exact List.mem_append_left _ (List.mem_append_right _ (mem_joinPieces (List.mem_map_of_mem hu) hp _))

/-- The declaration of an object mentions the type of each of its fields, in the promise of it. -/
theorem mention_mem_declarePieces {u : NamedType String} (hobject : Category.of u = .object)
    {entry : String × OutputField String} (hentry : entry ∈ u.body.outputFields) :
    .mention (shapeName s { isNode := false, isFunction := true } entry.2.type) ∈ declarePieces language s u := by
  have hshown : entry ∈ shownFields s false u.body.outputFields := List.mem_filter.mpr ⟨hentry, rfl⟩
  have hmember := mem_wrapPieces (mention_mem_fieldPieces s { isNode := false, isFunction := true } entry.2.type
    (getterPieces s false entry.1 entry.2)) ("  " ++ fieldLabel false entry.1 entry.2.type ++ ": ") ","
  have hpromise : .mention (shapeName s { isNode := false, isFunction := true } entry.2.type) ∈
      shapePieces s false u :=
    List.mem_append_right _ (mem_wrapPieces (mem_joinPieces (List.mem_map_of_mem hshown) hmember _) _ _)
  cases hbody : u.body with
  | object =>
    rw [declarePieces, hbody]
    exact List.mem_append_right _ (List.mem_cons_of_mem _ hpromise)
  | _ =>
    rw [Category.of, hbody] at hobject
    cases hobject

/-- The mutations of a client show where they mention something. -/
theorem mem_sourcePieces_of_mutation {name : String} (hname : name ≠ "")
    (hmention : .mention name ∈ rootPieces s s.mutation mutationStyle) :
    .mention name ∈ sourcePieces language s types options := by
  have hclient : .mention name ∈ clientPieces s := by
    delta clientPieces
    refine List.mem_append_left _ (List.mem_append_right _ ?_)
    unfold aroundPieces
    split
    · rename_i hempty
      exact absurd (eq_empty_of_mention (String.isEmpty_iff.mp hempty) hmention) hname
    · exact List.mem_append_left _ (List.mem_append_right _ hmention)
  delta sourcePieces
  simp only [List.mem_append, hclient, true_or, or_true]

end Mentioned

/-! ## Names that are exported -/

/-- The names that the declarations of a type export beside its own: that of its node, and those of what an
identifier goes in and comes out as. -/
def derivedNames (t : NamedType String) : List String :=
  match t.body with
  | .object _ _ | .interface _ _ => [nodeName t.name]
  | .scalar _ => if t.name = Scalar.id.name then ["ID_Input", "ID_Output"] else []
  | _ => []

/-- The name of a type, if its declarations export it. -/
def plainNames (t : NamedType String) : List String :=
  match t.body with
  | .interface _ _ => []
  | .scalar _ => if t.name = Scalar.id.name then [] else [t.name]
  | _ => [t.name]

/-- The names that the declarations of a type export. -/
def ownNames (t : NamedType String) : List String := derivedNames t ++ plainNames t

/-- The names that every client exports, as far as the sections that declare them are there. -/
def skeletonNames (s : Schema) : List String :=
  ["Exists", "Node", "Prisma", "Delegate"] ++
    (if (delegateQueries s).isEmpty then [] else ["DelegateQuery"]) ++
    (if (delegateMutations s).isEmpty then [] else ["DelegateMutation"]) ++ ["BindingConstructor"]

/-- The names that the text of a client exports as interfaces and types. -/
def exportedNames (language : Language) (s : Schema) (types : List ModelType) (options : ClientOptions) :
    List String :=
  (sourcePieces language s types options).filterMap Piece.exported?

/-- Pieces without declarations export nothing. -/
theorem exported_eq_nil {ps : List Piece} (h : ∀ p ∈ ps, p.exported? = none) :
    ps.filterMap Piece.exported? = [] :=
  List.filterMap_eq_nil_iff.mpr h

/-- Methods export nothing. -/
theorem exported_rootPieces (s : Schema) (root : Option String) (style : MethodStyle) :
    (rootPieces s root style).filterMap Piece.exported? = [] :=
  exported_eq_nil (forall_mem_rootPieces (fun _ => rfl) (fun _ _ => ⟨rfl, fun _ _ => rfl⟩) style)

theorem exported_interfacePieces {description : Option String} {name : String} {parents members : List (List Piece)}
    (hparents : ∀ ps ∈ parents, ∀ p ∈ ps, p.exported? = none)
    (hmembers : ∀ ps ∈ members, ∀ p ∈ ps, p.exported? = none) :
    (interfacePieces description name parents members).filterMap Piece.exported? = [name] := by
  have hhead : (if parents.isEmpty then [] else Piece.text " extends " :: joinPieces ", " parents).filterMap
      Piece.exported? = [] := by
    refine exported_eq_nil ?_
    split
    · exact nofun
    · exact List.forall_mem_cons.mpr ⟨rfl, forall_mem_joinPieces (fun _ => rfl) hparents _⟩
  have hbody := exported_eq_nil (forall_mem_wrapPieces (fun _ => rfl)
    (forall_mem_joinPieces (fun _ => rfl) hmembers "\n") " \x7b\n" "\n\x7d")
  delta interfacePieces
  rw [List.filterMap_append, List.filterMap_append, hhead, hbody]
  rfl

theorem exported_shapePieces (s : Schema) (isNode : Bool) (t : NamedType String) :
    (shapePieces s isNode t).filterMap Piece.exported? = [if isNode then nodeName t.name else t.name] := by
  refine exported_interfacePieces (List.forall_mem_append.mpr ⟨?_, ?_⟩) ?_
  · cases isNode with
    | true => exact nofun
    | false =>
      refine List.forall_mem_singleton.mpr (forall_mem_wrapPieces (fun _ => rfl) ?_ _ _)
      exact List.forall_mem_singleton.mpr rfl
  · exact List.forall_mem_map.mpr fun _ _ => List.forall_mem_singleton.mpr rfl
  · refine List.forall_mem_map.mpr fun entry _ => forall_mem_wrapPieces (fun _ => rfl) ?_ _ _
    exact forall_mem_outputFieldPieces (fun _ => rfl) rfl fun _ _ => rfl

/-- A declaration exports the names of its type, and nothing besides. -/
theorem exported_declarePieces (language : Language) (s : Schema) (t : NamedType String) :
    (declarePieces language s t).filterMap Piece.exported? = ownNames t := by
  unfold declarePieces ownNames derivedNames plainNames
  cases t.body with
  | scalar =>
    dsimp only
    unfold scalarPieces
    split <;> rfl
  | enum values => rfl
  | object interfaces fields =>
    dsimp only
    rw [List.filterMap_append, exported_shapePieces, List.filterMap_cons_none rfl, exported_shapePieces]
    rfl
  | interface interfaces fields => exact exported_shapePieces s true t
  | union members =>
    have hmembers := exported_eq_nil (forall_mem_joinPieces (P := fun p => p.exported? = none) (fun _ => rfl)
      (List.forall_mem_map.mpr fun (name : String) (_ : name ∈ members) =>
        List.forall_mem_singleton.mpr (rfl : (Piece.mention name).exported? = none)) " | ")
    dsimp only
    rw [List.filterMap_append, hmembers]
    rfl
  | inputObject fields isOneOf =>
    refine exported_interfacePieces nofun (List.forall_mem_map.mpr fun entry _ => ?_)
    refine forall_mem_wrapPieces (fun _ => rfl) ?_ _ _
    exact forall_mem_inputFieldPieces (P := fun p => p.exported? = none) (fun _ => rfl) rfl

/-- A section without content is left out with its heading. -/
theorem exported_aroundPieces {before content : List Piece} (hcontent : content.filterMap Piece.exported? = [])
    (after : String) : (aroundPieces before content after).filterMap Piece.exported? =
      if (renderPieces content).isEmpty then [] else before.filterMap Piece.exported? := by
  unfold aroundPieces
  split
  · rfl
  · rw [List.filterMap_append, List.filterMap_append, hcontent, List.append_nil]
    exact List.append_nil _

/-- A client exports the names of its skeleton and those of the types that it declares. -/
theorem exportedNames_eq (language : Language) (s : Schema) (types : List ModelType) (options : ClientOptions) :
    exportedNames language s types options = skeletonNames s ++ (declaredTypes s).flatMap ownNames := by
  have htypes : (joinPieces "\n\n" ((declaredTypes s).map (declarePieces language s))).filterMap Piece.exported? =
      (declaredTypes s).flatMap ownNames := by
    rw [filterMap_joinPieces fun _ => rfl, List.flatMap_map]
    simp only [exported_declarePieces]
  have hexists : (wrapPieces " \x7b\n" (existsPieces language s) "\n\x7d\n\n").filterMap Piece.exported? = [] := by
    refine exported_eq_nil (forall_mem_wrapPieces (fun _ => rfl) (forall_mem_joinPieces (fun _ => rfl) ?_ _) _ _)
    refine List.forall_mem_map.mpr fun entry _ => ?_
    cases language <;> simp [existsEntryPieces, Piece.exported?]
  have hqueries : renderPieces (rootPieces s s.query delegateQueryStyle) = delegateQueries s :=
    renderPieces_rootPieces s _ _
  have hmutations : renderPieces (rootPieces s s.mutation delegateMutationStyle) = delegateMutations s :=
    renderPieces_rootPieces s _ _
  unfold exportedNames
  delta sourcePieces clientPieces delegatePieces
  simp only [List.filterMap_append, htypes, hexists, exported_aroundPieces (exported_rootPieces _ _ _), hqueries,
    hmutations]
  delta skeletonNames
  simp only [List.filterMap_cons, List.filterMap_nil, Piece.exported?, List.append_assoc, List.cons_append,
    List.nil_append, List.append_nil, ite_self]

end OpenCrud.Client
