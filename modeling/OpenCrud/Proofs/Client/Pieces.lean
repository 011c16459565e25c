import OpenCrud.Proofs.Client.Delegates

/-!
# Text in pieces

The text of a client is put together from fixed text, names that it declares and names of types that it mentions.
As a list of pieces (`Piece`) the text shows which name is what. For every function that writes types and methods
there is one below that gives pieces, with a lemma that the pieces put together are what the function writes.
-/

namespace OpenCrud.Client

/-! ## Pieces -/

/-- A piece of the text of a client. -/
inductive Piece where
  | text (content : String)
  /-- The declaration of an interface under a name. -/
  | interface (name : String)
  /-- The declaration of another type under a name. -/
  | type (name : String)
  /-- The name of a type that is declared elsewhere. -/
  | mention (name : String)

namespace Piece

/-- A piece as text. -/
def render : Piece → String
  | .text content => content
  | .interface name => "export interface " ++ name
  | .type name => "export type " ++ name
  | .mention name => name

/-- The name that a piece exports. -/
def exported? : Piece → Option String
  | .interface name | .type name => some name
  | _ => none

/-- The name that a piece mentions. -/
def mentioned? : Piece → Option String
  | .mention name => some name
  | _ => none

end Piece

/-- Pieces as one text. -/
def renderPieces : List Piece → String
  | [] => ""
  | piece :: pieces => piece.render ++ renderPieces pieces

theorem renderPieces_nil : renderPieces [] = "" := rfl

theorem renderPieces_text_cons (content : String) (ps : List Piece) :
    renderPieces (.text content :: ps) = content ++ renderPieces ps := rfl

theorem renderPieces_mention_cons (name : String) (ps : List Piece) :
    renderPieces (.mention name :: ps) = name ++ renderPieces ps := rfl

theorem renderPieces_interface_cons (name : String) (ps : List Piece) :
    renderPieces (.interface name :: ps) = "export interface " ++ (name ++ renderPieces ps) :=
  String.append_assoc

theorem renderPieces_type_cons (name : String) (ps : List Piece) :
    renderPieces (.type name :: ps) = "export type " ++ (name ++ renderPieces ps) :=
  String.append_assoc

/-- Pieces are rendered one after the other. -/
theorem renderPieces_append (ps qs : List Piece) :
    renderPieces (ps ++ qs) = renderPieces ps ++ renderPieces qs := by
  induction ps with
  | nil => rw [List.nil_append, renderPieces, String.empty_append]
  | cons p ps ih => rw [List.cons_append, renderPieces, renderPieces, ih, String.append_assoc]

theorem renderPieces_text (content : String) : renderPieces [.text content] = content := by
  rw [renderPieces_text_cons, renderPieces_nil, String.append_empty]

theorem renderPieces_mention (name : String) : renderPieces [.mention name] = name := by
  rw [renderPieces_mention_cons, renderPieces_nil, String.append_empty]

/-- A name that is mentioned shows in the text. -/
theorem eq_empty_of_mention {ps : List Piece} (hps : renderPieces ps = "") {name : String}
    (hname : .mention name ∈ ps) : name = "" := by
  induction ps with
  | nil => cases hname
  | cons p ps ih =>
    obtain ⟨hp, hrest⟩ := String.append_eq_empty_iff.mp hps
    rcases List.mem_cons.mp hname with rfl | hname
    · exact hp
    · exact ih hrest hname

/-! ## Putting lists of pieces together -/

/-- Text on both sides of some pieces. -/
def wrapPieces (before : String) (ps : List Piece) (after : String) : List Piece :=
  .text before :: (ps ++ [.text after])

theorem renderPieces_wrapPieces (before : String) (ps : List Piece) (after : String) :
    renderPieces (wrapPieces before ps after) = before ++ renderPieces ps ++ after := by
  rw [wrapPieces, renderPieces_text_cons, renderPieces_append, renderPieces_text, String.append_assoc]

/-- A text between each two of some lists of pieces. -/
def joinPieces (sep : String) : List (List Piece) → List Piece
  | [] => []
  | [ps] => ps
  | ps :: qs :: rest => ps ++ .text sep :: joinPieces sep (qs :: rest)

/-- Separators between lists of pieces are separators between their texts. -/
theorem renderPieces_joinPieces (sep : String) (l : List (List Piece)) :
    renderPieces (joinPieces sep l) = sep.intercalate (l.map renderPieces) := by
  induction l with
  | nil => rfl
  | cons ps l ih =>
    cases l with
    | nil => rw [joinPieces, List.map_singleton, String.intercalate_singleton]
    | cons qs rest =>
      rw [joinPieces, renderPieces_append, renderPieces_text_cons, ih, List.map_cons, List.map_cons, List.map_cons,
        String.intercalate_cons_cons, String.append_assoc]

/-- What is rendered piece by piece for the items of a list is rendered for the list. -/
theorem renderPieces_joinPieces_map {α : Type} {f : α → List Piece} {f' : α → String}
    (h : ∀ a, renderPieces (f a) = f' a) (sep : String) (l : List α) :
    renderPieces (joinPieces sep (l.map f)) = sep.intercalate (l.map f') := by
  rw [renderPieces_joinPieces, List.map_map]
  congr 1
  exact List.map_congr_left fun a _ => h a

/-- The names in joined pieces are those in the parts; the text between them has none. -/
theorem filterMap_joinPieces {name? : Piece → Option String} (h : ∀ content, name? (.text content) = none)
    (sep : String) (l : List (List Piece)) :
    (joinPieces sep l).filterMap name? = l.flatMap (·.filterMap name?) := by
  induction l with
  | nil => rfl
  | cons ps l ih =>
    cases l with
    | nil => simp [joinPieces]
    | cons qs rest =>
      rw [joinPieces, List.filterMap_append, List.flatMap_cons, ← ih, List.filterMap_cons_none (h sep)]

/-! ## Types -/

section Types

variable (s : Schema) (style : TypeStyle) (t : TypeExpr String) (ps : List Piece)

/-- The pieces of a promise of a type. -/
def promisePieces : List Piece := wrapPieces "Promise<" ps ">"

/-- The pieces of an array of a type. -/
def arrayPieces : List Piece := wrapPieces "Array<" ps ">"

/-- The pieces of a function with a parameter list. -/
def functionPieces (parameters : List Piece) : List Piece := .text "(" :: (parameters ++ .text ") => " :: ps)

/-- The pieces of a type with null as a value, where lists and nodes say so. -/
def withNullPieces : List Piece :=
  if (isListed t || style.isNode) && isNullable t then ps ++ [.text " | null"] else ps

/-- The pieces of a type with every part of it optional. -/
def withPartialPieces : List Piece := if style.isPartial then wrapPieces "Partial<" ps ">" else ps

/-- The pieces of the type of a field of an input object. -/
def inputFieldPieces : TypeExpr String → List Piece
  | .named name => [.mention (inputName name)]
  | .nonNull inner => inputFieldPieces inner
  | .list item => inputFieldPieces item ++ .text "[] | " :: inputFieldPieces item

/-- The pieces of the type of an argument. -/
def argumentPieces : List Piece :=
  let type := withNullPieces style t [.mention (shapeName s style t)]
  if isListed t then
    if s.isLeaf t.base then arrayPieces type
    else if style.isFunction then functionPieces (promisePieces (arrayPieces type)) []
    else promisePieces (arrayPieces type)
  else
    let type := withPartialPieces style type
    if style.isNode && s.isLeaf t.base then promisePieces type else type

/-- The pieces of the type of a field. -/
def fieldPieces (parameters : List Piece) : List Piece :=
  let name : List Piece := [.mention (shapeName s style t)]
  if s.isLeaf t.base then
    let type := if isListed t then name ++ [.text "[]"] else name
    if style.isNode then type else functionPieces (promisePieces type) parameters
  else
    let type := withNullPieces style t name
    if isListed t then
      let type := promisePieces (arrayPieces type)
      if style.isFunction then functionPieces type parameters else type
    else
      let type := withPartialPieces style type
      if style.isNode then promisePieces type
      else if style.isFunction then functionPieces type parameters
      else type

theorem renderPieces_promisePieces : renderPieces (promisePieces ps) = promise (renderPieces ps) :=
  renderPieces_wrapPieces _ _ _

theorem renderPieces_arrayPieces : renderPieces (arrayPieces ps) = array (renderPieces ps) :=
  renderPieces_wrapPieces _ _ _

theorem renderPieces_functionPieces (parameters : List Piece) :
    renderPieces (functionPieces ps parameters) = function (renderPieces parameters) (renderPieces ps) := by
  delta functionPieces function
  rw [renderPieces_text_cons, renderPieces_append, renderPieces_text_cons, String.append_assoc, String.append_assoc]

/-- The mark of what can be missing stands around the pieces where it stands around the text. -/
theorem renderPieces_withNullPieces :
    renderPieces (withNullPieces style t ps) = withNull style t (renderPieces ps) := by
  unfold withNullPieces withNull
  split
  · rw [renderPieces_append, renderPieces_text]
  · rfl

theorem renderPieces_withPartialPieces :
    renderPieces (withPartialPieces style ps) = withPartial style (renderPieces ps) := by
  unfold withPartialPieces withPartial
  split
  · exact renderPieces_wrapPieces _ _ _
  · rfl

/-- The pieces of the type of an input field have the text of the type. -/
theorem renderPieces_inputFieldPieces : renderPieces (inputFieldPieces t) = inputFieldType t := by
  induction t with
  | named name => exact renderPieces_mention _
  | nonNull inner ih => exact ih
  | list item ih =>
    rw [inputFieldPieces, renderPieces_append, renderPieces_text_cons, ih, inputFieldType, String.append_assoc]

theorem renderPieces_argumentPieces : renderPieces (argumentPieces s style t) = argumentType s style t := by
  simp only [argumentPieces, argumentType, apply_ite renderPieces, renderPieces_functionPieces,
    renderPieces_promisePieces, renderPieces_arrayPieces, renderPieces_withPartialPieces,
    renderPieces_withNullPieces, renderPieces_mention, renderPieces_nil]

/-- The pieces of the type of a field have the text of the type, promises and functions included. -/
theorem renderPieces_fieldPieces (parameters : List Piece) :
    renderPieces (fieldPieces s style t parameters) = fieldType s style (renderPieces parameters) t := by
  simp only [fieldPieces, fieldType, apply_ite renderPieces, renderPieces_functionPieces,
    renderPieces_promisePieces, renderPieces_arrayPieces, renderPieces_withPartialPieces,
    renderPieces_withNullPieces, renderPieces_append, renderPieces_mention, renderPieces_text]

end Types

/-! ## Methods -/

section Methods

variable (s : Schema)

/-- The pieces of an entry of a record of arguments. -/
def entryPieces (argument : String × InputField String) : List Piece :=
  .text (argument.1 ++ optionalMark (!argument.2.type.isNonNull) ++ ": ") ::
    argumentPieces s {} argument.2.type

/-- The pieces of the parameters of a field. -/
def parametersPieces (style : CallStyle) (name : String) (field : OutputField String) : List Piece :=
  let mark := optionalMark (field.args.all fun argument => !argument.2.type.isNonNull)
  let padding := if field.args.isEmpty then "" else " "
  let record := wrapPieces ("args" ++ mark ++ ": \x7b" ++ padding)
    (joinPieces ", " (field.args.map (entryPieces s))) (padding ++ "\x7d")
  match field.args with
  | [] => record
  | first :: _ =>
    if Parameters.takesData style name then .text ("data" ++ mark ++ ": ") :: argumentPieces s {} first.2.type
    else if Parameters.takesSelection s style name field then
      .text ("where" ++ mark ++ ": ") :: argumentPieces s {} first.2.type
    else record

/-- The pieces of the parameter list of a field. -/
def parameterListPieces (style : CallStyle) (name : String) (field : OutputField String) : List Piece :=
  parametersPieces s style name field ++ if style.withInfo then [.text infoParameters] else []

/-- The pieces of the parameter list of the function that gets a field of an item. -/
def getterPieces (isMutation : Bool) (name : String) (field : OutputField String) : List Piece :=
  if field.args.isEmpty then [] else parameterListPieces s { isMutation } name field

/-- The pieces of the type of a field of an object, an interface or a root type. -/
def outputFieldPieces (style : TypeStyle) (isMutation : Bool) (name : String) (field : OutputField String) :
    List Piece :=
  fieldPieces s style field.type (getterPieces s isMutation name field)

/-- The pieces of the type that a method results in. -/
def resultPieces (style : MethodStyle) (entry : String × OutputField String) : List Piece :=
  if style.operation = .subscription then [.text "Promise<AsyncIterator<T>>"]
  else if style.isDelegate then [.text "T"]
  else outputFieldPieces s {} style.isMutation entry.1 entry.2

/-- The pieces of the method for a field of a root type. -/
def methodPieces (style : MethodStyle) (entry : String × OutputField String) : List Piece :=
  .text ("    " ++ entry.1 ++ ": " ++ if style.isDelegate then "<T>" else "") ::
    functionPieces (resultPieces s style entry) (parameterListPieces s style.callStyle entry.1 entry.2)

/-- The pieces of the methods for a root type. -/
def rootPieces (root : Option String) (style : MethodStyle) : List Piece :=
  joinPieces ";\n" ((rootFields s root).map (methodPieces s style))

theorem renderPieces_entryPieces (argument : String × InputField String) :
    renderPieces (entryPieces s argument) = (ArgumentEntry.ofArgument s argument).render := by
  rw [entryPieces, renderPieces_text_cons, renderPieces_argumentPieces]
  rfl

/-- A parameter list has one form for one argument and another one for several; so do its pieces. -/
theorem renderPieces_parametersPieces (style : CallStyle) (name : String) (field : OutputField String) :
    renderPieces (parametersPieces s style name field) = (Parameters.ofField s style name field).render := by
  have hentries : renderPieces (joinPieces ", " (field.args.map (entryPieces s))) =
      ", ".intercalate ((field.args.map (ArgumentEntry.ofArgument s)).map ArgumentEntry.render) := by
    rw [List.map_map]
    exact renderPieces_joinPieces_map (renderPieces_entryPieces s) ", " field.args
  unfold parametersPieces Parameters.ofField
  cases hargs : field.args with
  | nil => rfl
  | cons first rest =>
    rw [hargs] at hentries
    dsimp only [List.map_cons]
    split
    · rw [renderPieces_text_cons, renderPieces_argumentPieces]
      rfl
    · split
      · rw [renderPieces_text_cons, renderPieces_argumentPieces]
        rfl
      · rw [renderPieces_wrapPieces, hentries]
        exact String.append_assoc.symm

theorem renderPieces_parameterListPieces (style : CallStyle) (name : String) (field : OutputField String) :
    renderPieces (parameterListPieces s style name field) = parameterList s style name field := by
  rw [parameterListPieces, renderPieces_append, renderPieces_parametersPieces, apply_ite renderPieces,
    renderPieces_text, renderPieces_nil]
  rfl

theorem renderPieces_outputFieldPieces (style : TypeStyle) (isMutation : Bool) (name : String)
    (field : OutputField String) :
    renderPieces (outputFieldPieces s style isMutation name field) =
      outputFieldType s style isMutation name field := by
  rw [outputFieldPieces, renderPieces_fieldPieces, getterPieces, apply_ite renderPieces,
    renderPieces_parameterListPieces, renderPieces_nil]
  rfl

theorem renderPieces_methodPieces (style : MethodStyle) (entry : String × OutputField String) :
    renderPieces (methodPieces s style entry) = (style.method s entry.1 entry.2).render := by
  have hresult : renderPieces (resultPieces s style entry) = style.result s entry.1 entry.2 := by
    rw [resultPieces, apply_ite renderPieces, apply_ite renderPieces, renderPieces_outputFieldPieces,
      renderPieces_text, renderPieces_text]
    rfl
  rw [methodPieces, renderPieces_text_cons, renderPieces_functionPieces, renderPieces_parameterListPieces, hresult]
  rfl

theorem renderPieces_rootPieces (root : Option String) (style : MethodStyle) :
    renderPieces (rootPieces s root style) = rootMethods s root style := by
  rw [rootPieces, renderPieces_joinPieces_map (renderPieces_methodPieces s style), rootMethods, rootFields]
  cases s.root? root with
  | none => rfl
  | some t => rfl

end Methods

/-! ## What the pieces are

A property of all text is one of all pieces of a type or a method, if the names in it have the property.
-/

section Forall

variable {P : Piece → Prop} (htext : ∀ content, P (.text content)) {ps : List Piece}

include htext

theorem forall_mem_wrapPieces (hps : ∀ p ∈ ps, P p) (before after : String) :
    ∀ p ∈ wrapPieces before ps after, P p :=
  List.forall_mem_cons.mpr ⟨htext _, List.forall_mem_append.mpr ⟨hps, List.forall_mem_singleton.mpr (htext _)⟩⟩

/-- Separators are texts, and texts have every property that is asked of names. -/
theorem forall_mem_joinPieces {l : List (List Piece)} (hl : ∀ ps ∈ l, ∀ p ∈ ps, P p) (sep : String) :
    ∀ p ∈ joinPieces sep l, P p := by
  induction l with
  | nil => exact nofun
  | cons ps l ih =>
    obtain ⟨hps, hl⟩ := List.forall_mem_cons.mp hl
    cases l with
    | nil => exact hps
    | cons qs rest => exact List.forall_mem_append.mpr ⟨hps, List.forall_mem_cons.mpr ⟨htext _, ih hl⟩⟩

theorem forall_mem_functionPieces {parameters : List Piece} (hps : ∀ p ∈ ps, P p)
    (hparameters : ∀ p ∈ parameters, P p) : ∀ p ∈ functionPieces ps parameters, P p :=
  List.forall_mem_cons.mpr
    ⟨htext _, List.forall_mem_append.mpr ⟨hparameters, List.forall_mem_cons.mpr ⟨htext _, hps⟩⟩⟩

theorem forall_mem_withNullPieces (hps : ∀ p ∈ ps, P p) (style : TypeStyle) (t : TypeExpr String) :
    ∀ p ∈ withNullPieces style t ps, P p := by
  unfold withNullPieces
  split
  · exact List.forall_mem_append.mpr ⟨hps, List.forall_mem_singleton.mpr (htext _)⟩
  · exact hps

theorem forall_mem_withPartialPieces (hps : ∀ p ∈ ps, P p) (style : TypeStyle) :
    ∀ p ∈ withPartialPieces style ps, P p := by
  unfold withPartialPieces
  split
  · exact forall_mem_wrapPieces htext hps _ _
  · exact hps

/-- The type of an input field mentions one name, however deep its lists are. -/
theorem forall_mem_inputFieldPieces {t : TypeExpr String} (hname : P (.mention (inputName t.base))) :
    ∀ p ∈ inputFieldPieces t, P p := by
  induction t with
  | named name => exact List.forall_mem_singleton.mpr hname
  | nonNull inner ih => exact ih hname
  | list item ih => exact List.forall_mem_append.mpr ⟨ih hname, List.forall_mem_cons.mpr ⟨htext _, ih hname⟩⟩

variable {s : Schema}

/-- The type of an argument mentions one name. -/
theorem forall_mem_argumentPieces {style : TypeStyle} {t : TypeExpr String}
    (hname : P (.mention (shapeName s style t))) : ∀ p ∈ argumentPieces s style t, P p := by
  have hnull := forall_mem_withNullPieces htext (List.forall_mem_singleton.mpr hname) style t
  have harray := forall_mem_wrapPieces htext hnull "Array<" ">"
  have hpromise := forall_mem_wrapPieces htext harray "Promise<" ">"
  have hpartial := forall_mem_withPartialPieces htext hnull style
  unfold argumentPieces
  dsimp only
  split
  · split
    · exact harray
    · split
      · exact forall_mem_functionPieces htext hpromise nofun
      · exact hpromise
  · split
    · exact forall_mem_wrapPieces htext hpartial _ _
    · exact hpartial

/-- The type of a field mentions its own name and what its parameters mention. -/
theorem forall_mem_fieldPieces {style : TypeStyle} {t : TypeExpr String} {parameters : List Piece}
    (hname : P (.mention (shapeName s style t))) (hparameters : ∀ p ∈ parameters, P p) :
    ∀ p ∈ fieldPieces s style t parameters, P p := by
  have hname := List.forall_mem_singleton.mpr hname
  have hnull := forall_mem_withNullPieces htext hname style t
  have hpartial := forall_mem_withPartialPieces htext hnull style
  have hlist : ∀ p ∈ if isListed t then [Piece.mention (shapeName s style t)] ++ [.text "[]"] else
      [Piece.mention (shapeName s style t)], P p := by
    split
    · exact List.forall_mem_append.mpr ⟨hname, List.forall_mem_singleton.mpr (htext _)⟩
    · exact hname
  have hpromise : ∀ {qs : List Piece}, (∀ p ∈ qs, P p) → ∀ p ∈ promisePieces qs, P p :=
    fun hqs => forall_mem_wrapPieces htext hqs _ _
  have harray := hpromise (forall_mem_wrapPieces htext hnull "Array<" ">")
  unfold fieldPieces
  dsimp only
  split
  · split
    · exact hlist
    · exact forall_mem_functionPieces htext (hpromise hlist) hparameters
  · split
    · split
      · exact forall_mem_functionPieces htext harray hparameters
      · exact harray
    · split
      · exact hpromise hpartial
      · split
        · exact forall_mem_functionPieces htext hpartial hparameters
        · exact hpartial

theorem forall_mem_parametersPieces {style : CallStyle} {name : String} {field : OutputField String}
    (hargs : ∀ argument ∈ field.args, P (.mention (shapeName s {} argument.2.type))) :
    ∀ p ∈ parametersPieces s style name field, P p := by
  have hrecord : ∀ before after, ∀ p ∈ wrapPieces before
      (joinPieces ", " (field.args.map (entryPieces s))) after, P p := by
    intro before after
    refine forall_mem_wrapPieces htext (forall_mem_joinPieces htext ?_ _) _ _
    refine List.forall_mem_map.mpr fun argument hargument => List.forall_mem_cons.mpr ⟨htext _, ?_⟩
    exact forall_mem_argumentPieces htext (hargs argument hargument)
  unfold parametersPieces
  dsimp only
  split
  · exact hrecord _ _
  · rename_i first rest heq
    have hfirst := forall_mem_argumentPieces htext (hargs first (heq ▸ List.mem_cons_self))
    split
    · exact List.forall_mem_cons.mpr ⟨htext _, hfirst⟩
    · split
      · exact List.forall_mem_cons.mpr ⟨htext _, hfirst⟩
      · exact hrecord _ _

theorem forall_mem_parameterListPieces {style : CallStyle} {name : String} {field : OutputField String}
    (hargs : ∀ argument ∈ field.args, P (.mention (shapeName s {} argument.2.type))) :
    ∀ p ∈ parameterListPieces s style name field, P p := by
  refine List.forall_mem_append.mpr ⟨forall_mem_parametersPieces htext hargs, ?_⟩
  split
  · exact List.forall_mem_singleton.mpr (htext _)
  · exact nofun

theorem forall_mem_outputFieldPieces {style : TypeStyle} {isMutation : Bool} {name : String}
    {field : OutputField String} (htype : P (.mention (shapeName s style field.type)))
    (hargs : ∀ argument ∈ field.args, P (.mention (shapeName s {} argument.2.type))) :
    ∀ p ∈ outputFieldPieces s style isMutation name field, P p := by
  refine forall_mem_fieldPieces htext htype ?_
  unfold getterPieces
  split
  · exact nofun
  · exact forall_mem_parameterListPieces htext hargs

theorem forall_mem_methodPieces {style : MethodStyle} {entry : String × OutputField String}
    (htype : P (.mention (shapeName s {} entry.2.type)))
    (hargs : ∀ argument ∈ entry.2.args, P (.mention (shapeName s {} argument.2.type))) :
    ∀ p ∈ methodPieces s style entry, P p := by
  refine List.forall_mem_cons.mpr
    ⟨htext _, forall_mem_functionPieces htext ?_ (forall_mem_parameterListPieces htext hargs)⟩
  unfold resultPieces
  split
  · exact List.forall_mem_singleton.mpr (htext _)
  · split
    · exact List.forall_mem_singleton.mpr (htext _)
    · exact forall_mem_outputFieldPieces htext htype hargs

/-- The methods of a root type mention what its fields show and take, and nothing else. -/
theorem forall_mem_rootPieces {root : Option String}
    (hfields : ∀ entry ∈ rootFields s root, P (.mention (shapeName s {} entry.2.type)) ∧
      ∀ argument ∈ entry.2.args, P (.mention (shapeName s {} argument.2.type))) (style : MethodStyle) :
    ∀ p ∈ rootPieces s root style, P p :=
  forall_mem_joinPieces htext (List.forall_mem_map.mpr fun entry hentry =>
    forall_mem_methodPieces htext (hfields entry hentry).1 (hfields entry hentry).2) _

end Forall

/-! ## Names that are mentioned for certain -/

section Mentioned

variable {p : Piece} {ps : List Piece}

theorem mem_wrapPieces (hp : p ∈ ps) (before after : String) : p ∈ wrapPieces before ps after :=
  List.mem_cons_of_mem _ (List.mem_append_left _ hp)

/-- No piece is lost between separators. -/
theorem mem_joinPieces {l : List (List Piece)} (hps : ps ∈ l) (hp : p ∈ ps) (sep : String) :
    p ∈ joinPieces sep l := by
  induction l with
  | nil => cases hps
  | cons qs l ih =>
    cases l with
    | nil => exact List.mem_singleton.mp hps ▸ hp
    | cons rs rest =>
      rcases List.mem_cons.mp hps with rfl | hps
      · exact List.mem_append_left _ hp
      · exact List.mem_append_right _ (List.mem_cons_of_mem _ (ih hps))

theorem mem_functionPieces_parameters (hp : p ∈ ps) (type : List Piece) : p ∈ functionPieces type ps :=
  List.mem_cons_of_mem _ (List.mem_append_left _ hp)

theorem mem_functionPieces (hp : p ∈ ps) (parameters : List Piece) : p ∈ functionPieces ps parameters :=
  List.mem_cons_of_mem _ (List.mem_append_right _ (List.mem_cons_of_mem _ hp))

theorem mem_withNullPieces (hp : p ∈ ps) (style : TypeStyle) (t : TypeExpr String) :
    p ∈ withNullPieces style t ps := by
  unfold withNullPieces
  split
  · exact List.mem_append_left _ hp
  · exact hp

theorem mem_withPartialPieces (hp : p ∈ ps) (style : TypeStyle) : p ∈ withPartialPieces style ps := by
  unfold withPartialPieces
  split
  · exact mem_wrapPieces hp _ _
  · exact hp

variable (s : Schema) (style : TypeStyle) (t : TypeExpr String)

/-- The type of an argument mentions the name of the type. -/
theorem mention_mem_argumentPieces : .mention (shapeName s style t) ∈ argumentPieces s style t := by
  have hnull := mem_withNullPieces (List.mem_singleton_self (Piece.mention (shapeName s style t))) style t
  have harray := mem_wrapPieces hnull "Array<" ">"
  have hpartial := mem_withPartialPieces hnull style
  unfold argumentPieces
  dsimp only
  split
  · split
    · exact harray
    · split
      · exact mem_functionPieces (mem_wrapPieces harray _ _) _
      · exact mem_wrapPieces harray _ _
  · split
    · exact mem_wrapPieces hpartial _ _
    · exact hpartial

/-- The type of a field mentions the name of the type. -/
theorem mention_mem_fieldPieces (parameters : List Piece) :
    .mention (shapeName s style t) ∈ fieldPieces s style t parameters := by
  have hname := List.mem_singleton_self (Piece.mention (shapeName s style t))
  have hnull := mem_withNullPieces hname style t
  have hpartial := mem_withPartialPieces hnull style
  have hlist : Piece.mention (shapeName s style t) ∈ if isListed t then
      [Piece.mention (shapeName s style t)] ++ [.text "[]"] else [Piece.mention (shapeName s style t)] := by
    split
    · exact List.mem_append_left _ hname
    · exact hname
  have hpromise : ∀ {p : Piece} {qs : List Piece}, p ∈ qs → p ∈ promisePieces qs :=
    fun hp => mem_wrapPieces hp _ _
  have harray := hpromise (mem_wrapPieces hnull "Array<" ">")
  unfold fieldPieces
  dsimp only
  split
  · split
    · exact hlist
    · exact mem_functionPieces (hpromise hlist) _
  · split
    · split
      · exact mem_functionPieces harray _
      · exact harray
    · split
      · exact hpromise hpartial
      · split
        · exact mem_functionPieces hpartial _
        · exact hpartial

variable {s}

/-- However a field is called, its first argument is a parameter. -/
theorem mention_mem_parametersPieces {style : CallStyle} {name : String} {field : OutputField String}
    {first : String × InputField String} {rest : FieldMap (InputField String)} (hargs : field.args = first :: rest) :
    .mention (shapeName s {} first.2.type) ∈ parametersPieces s style name field := by
  have hfirst := mention_mem_argumentPieces s {} first.2.type
  unfold parametersPieces
  rw [hargs]
  dsimp only
  split
  · exact List.mem_cons_of_mem _ hfirst
  · split
    · exact List.mem_cons_of_mem _ hfirst
    · exact mem_wrapPieces (mem_joinPieces List.mem_cons_self (List.mem_cons_of_mem _ hfirst) _) _ _

theorem mention_mem_rootPieces {root : Option String} {entry : String × OutputField String}
    (hentry : entry ∈ rootFields s root) {first : String × InputField String} {rest : FieldMap (InputField String)}
    (hargs : entry.2.args = first :: rest) (style : MethodStyle) :
    .mention (shapeName s {} first.2.type) ∈ rootPieces s root style := by
  refine mem_joinPieces (List.mem_map_of_mem hentry) (List.mem_cons_of_mem _ ?_) _
  exact mem_functionPieces_parameters (List.mem_append_left _ (mention_mem_parametersPieces hargs)) _

end Mentioned

end OpenCrud.Client
