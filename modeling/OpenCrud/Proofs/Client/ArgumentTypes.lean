import OpenCrud.Proofs.Client.Pieces
import OpenCrud.Proofs.Client.ShownTypes
import OpenCrud.Schema.OfDocument

/-!
# Types of arguments

What goes into a field as an argument goes into an input object as a field, so both should name its type alike. The
type of an argument is written as that of a result, though. Main result: an argument is written as an input exactly
where its type is not `ID`, and not a list with other items than those of scalars and enums
(`argumentTypes_iff`). No argument in the schema of a datamodel is a list (`writtenAsInput_iff_of_parse`).
-/

namespace OpenCrud.Client

open Datamodel Generate

/-! ## What a type names -/

/-- The names that pieces mention. -/
def mentions (ps : List Piece) : List String := ps.filterMap Piece.mentioned?

/-- That pieces name one type, perhaps several times, and nothing else. -/
structure NamesOnly (name : String) (ps : List Piece) : Prop where
  named : mentions ps ≠ []
  only : ∀ n ∈ mentions ps, n = name

/-- The name that a type has where its values are given: all types have their own, but identifiers go in as another type
than they come out. -/
def givenName (name : String) : String := if name = "ID" then "ID_Input" else name

/-- That an argument is written as an input: it names its type as a field of an input object is to do, and nothing is
awaited. -/
structure WrittenAsInput (s : Schema) (t : TypeExpr String) : Prop where
  names : NamesOnly (givenName t.base) (argumentPieces s {} t)
  noPromise : .text "Promise<" ∉ argumentPieces s {} t

/-- The arguments that are in a parameter list: under a label only the first. -/
def shownArguments (s : Schema) (style : CallStyle) (name : String) (field : OutputField String) :
    FieldMap (InputField String) :=
  if Parameters.takesData style name || Parameters.takesSelection s style name field then field.args.take 1
  else field.args

/-- The types in a parameter list. -/
def Parameters.types : Parameters → List String
  | .single _ _ type => [type]
  | .record _ entries => entries.map (·.type)

section Types

variable {s : Schema} {t : TypeExpr String}

theorem inputName_eq_givenName (name : String) : inputName name = givenName name := rfl

/-- However a list type is nested, a field of an input object names nothing but the type of the items. -/
theorem namesOnly_inputFieldPieces (t : TypeExpr String) : NamesOnly (givenName t.base) (inputFieldPieces t) := by
  induction t with
  | named name =>
    refine ⟨List.cons_ne_nil _ _, fun n hn => ?_⟩
    rw [← inputName_eq_givenName]
    exact List.mem_singleton.mp hn
  | nonNull inner ih => exact ih
  | list item ih =>
    have hmentions : mentions (inputFieldPieces (.list item)) =
        mentions (inputFieldPieces item) ++ mentions (inputFieldPieces item) :=
      List.filterMap_append
    refine ⟨fun hnil => ih.named (List.append_eq_nil_iff.mp (hmentions ▸ hnil)).1, fun n hn => ?_⟩
    rw [hmentions, List.mem_append, or_self] at hn
    exact ih.only n hn

/-- The pieces of an argument, which is neither a part of a node nor one of something partial. -/
theorem argumentPieces_eq : argumentPieces s {} t =
    if isListed t then
      if s.isLeaf t.base then arrayPieces (withNullPieces {} t [.mention (shapeName s {} t)])
      else promisePieces (arrayPieces (withNullPieces {} t [.mention (shapeName s {} t)]))
    else [.mention (shapeName s {} t)] := by
  unfold argumentPieces
  cases hlisted : isListed t with
  | true => rfl
  | false =>
    have hnull : withNullPieces {} t [.mention (shapeName s {} t)] = [.mention (shapeName s {} t)] := by
      rw [withNullPieces, hlisted]
      rfl
    rw [hnull]
    rfl

theorem mentions_wrapPieces (before : String) (ps : List Piece) (after : String) :
    mentions (wrapPieces before ps after) = mentions ps := by
  have happend : mentions (wrapPieces before ps after) = mentions ps ++ mentions [.text after] :=
    List.filterMap_append
  rw [happend]
  exact List.append_nil _

theorem mentions_withNullPieces (style : TypeStyle) (ps : List Piece) :
    mentions (withNullPieces style t ps) = mentions ps := by
  unfold withNullPieces
  split
  · exact List.filterMap_append.trans (List.append_nil _)
  · rfl

/-- An argument names one type, once. -/
theorem mentions_argumentPieces : mentions (argumentPieces s {} t) = [shapeName s {} t] := by
  have harray : mentions (arrayPieces (withNullPieces {} t [.mention (shapeName s {} t)])) = [shapeName s {} t] := by
    rw [arrayPieces, mentions_wrapPieces, mentions_withNullPieces]
    rfl
  rw [argumentPieces_eq]
  split
  · split
    · exact harray
    · rw [promisePieces, mentions_wrapPieces, harray]
  · rfl

/-- Only lists of items with parts are awaited. -/
theorem promise_mem_argumentPieces_iff : .text "Promise<" ∈ argumentPieces s {} t ↔
    isListed t = true ∧ s.isLeaf t.base = false := by
  have harray : .text "Promise<" ∉ arrayPieces (withNullPieces {} t [.mention (shapeName s {} t)]) := by
    unfold arrayPieces wrapPieces withNullPieces
    split
    · simp
    · simp
  rw [argumentPieces_eq]
  cases isListed t with
  | false => simp
  | true =>
    cases s.isLeaf t.base with
    | true => simpa using harray
    | false => simp [promisePieces, wrapPieces]

/-- The name of an argument's type is that of an input where it comes out as it goes in, and has no shape as a
node. -/
theorem shapeName_eq_givenName_iff : shapeName s {} t = givenName t.base ↔
    t.base ≠ "ID" ∧ (isListed t = true → s.isLeaf t.base = true) := by
  have hshape : shapeName s {} t =
      if isListed t && !s.isLeaf t.base then outputName t.base ++ "Node" else outputName t.base := by
    rw [shapeName, Bool.false_or]
  by_cases hid : t.base = "ID"
  · refine iff_of_false (fun heq => ?_) fun hc => hc.1 hid
    rw [hshape, hid] at heq
    split at heq
    · exact absurd heq (by decide)
    · exact absurd heq (by decide)
  · have hgiven : givenName t.base = t.base := if_neg hid
    have houtput : outputName t.base = t.base := if_neg hid
    rw [hshape, hgiven, houtput]
    have hnode : t.base ++ "Node" ≠ t.base := fun heq => absurd (String.append_eq_left_iff.mp heq) (by decide)
    cases isListed t with
    | false => simp [hid]
    | true => cases s.isLeaf t.base <;> simp [hid, hnode]

theorem writtenAsInput_iff : WrittenAsInput s t ↔
    t.base ≠ "ID" ∧ (isListed t = true → s.isLeaf t.base = true) := by
  have hnames : NamesOnly (givenName t.base) (argumentPieces s {} t) ↔ shapeName s {} t = givenName t.base := by
    constructor
    · intro h
      exact h.only _ (mentions_argumentPieces ▸ List.mem_singleton_self _)
    · intro h
      refine ⟨mentions_argumentPieces ▸ List.cons_ne_nil _ _, fun n hn => ?_⟩
      rw [mentions_argumentPieces] at hn
      exact (List.mem_singleton.mp hn).trans h
  constructor
  · intro h
    exact shapeName_eq_givenName_iff.mp (hnames.mp h.names)
  · intro h
    refine ⟨hnames.mpr (shapeName_eq_givenName_iff.mpr h), fun hpromise => ?_⟩
    obtain ⟨hlisted, hleaf⟩ := promise_mem_argumentPieces_iff.mp hpromise
    rw [h.2 hlisted] at hleaf
    cases hleaf

end Types

/-- The types in a parameter list are those of the arguments that it has. -/
theorem types_ofField (s : Schema) (style : CallStyle) (name : String) (field : OutputField String) :
    (Parameters.ofField s style name field).types =
      (shownArguments s style name field).map fun argument => argumentType s {} argument.2.type := by
  unfold Parameters.ofField shownArguments
  cases field.args with
  | nil => simp [Parameters.types]
  | cons first rest =>
    dsimp only [List.map_cons]
    cases Parameters.takesData style name with
    | true => rfl
    | false =>
      cases Parameters.takesSelection s style name field with
      | true => rfl
      | false => simp [Parameters.types, ArgumentEntry.ofArgument]

/-! ## Main result -/

/--
What is written for an argument of a field, in any schema and any way to call the field.

The types in the parameter list are those of its arguments. The name of an argument's type is a piece of what is
written, as it is for a field of an input object of the same type, which names nothing but the type that goes in. An
argument names this type as well and is not awaited exactly where the type is not `ID`, and no list, unless its items
are those of a scalar or an enum.
-/
theorem argumentTypes_iff (s : Schema) (style : CallStyle) (name : String) (field : OutputField String) :
    (Parameters.ofField s style name field).types =
      (shownArguments s style name field).map (fun argument => argumentType s {} argument.2.type) ∧
    ∀ argument ∈ field.args,
      (renderPieces (argumentPieces s {} argument.2.type) = argumentType s {} argument.2.type ∧
        renderPieces (inputFieldPieces argument.2.type) = inputFieldType argument.2.type) ∧
      NamesOnly (givenName argument.2.type.base) (inputFieldPieces argument.2.type) ∧
      (WrittenAsInput s argument.2.type ↔ argument.2.type.base ≠ "ID" ∧
        (isListed argument.2.type = true → s.isLeaf argument.2.type.base = true)) := by
  refine ⟨types_ofField s style name field, fun argument _ => ?_⟩
  exact ⟨⟨renderPieces_argumentPieces s {} argument.2.type, renderPieces_inputFieldPieces argument.2.type⟩,
    namesOnly_inputFieldPieces argument.2.type, writtenAsInput_iff⟩

/-- A field with an identifier, a list of inputs and a list of numbers for arguments. -/
def searchField : OutputField String where
  type := .named "Int"
  args := [("id", { type := .nonNull (.named "ID") }), ("filters", { type := .list (.nonNull (.named "Filter")) }),
    ("sizes", { type := .list (.nonNull (.named "Int")) })]

/-- A document with such a field. -/
def searchSource : List Char :=
  "input Filter { size: Int } type Query { search(id: ID!, filters: [Filter!], sizes: [Int!]): Int }".toList

/-- Of the arguments of this field only the list of numbers is written as an input. -/
theorem argumentTypes_search : ∃ document s, Sdl.Document.parse searchSource = .ok document ∧
    Schema.ofDocument document = .ok s ∧ ("search", searchField) ∈ rootFields s s.query ∧
    (Parameters.ofField s {} "search" searchField).types =
      ["ID_Output", "Promise<Array<FilterNode>>", "Array<Int>"] ∧
    ¬WrittenAsInput s (.nonNull (.named "ID")) ∧ ¬WrittenAsInput s (.list (.nonNull (.named "Filter"))) ∧
    WrittenAsInput s (.list (.nonNull (.named "Int"))) := by
  obtain ⟨document, hparse, hany⟩ := exists_ok_of_any
    (p := fun document => (Schema.ofDocument document).toOption.any fun s =>
      decide (("search", searchField) ∈ rootFields s s.query ∧ (Parameters.ofField s {} "search" searchField).types =
        ["ID_Output", "Promise<Array<FilterNode>>", "Array<Int>"] ∧ s.isLeaf "Filter" = false ∧ s.isLeaf "Int" = true))
    (show (Sdl.Document.parse searchSource).toOption.any _ = true by decide +kernel)
  obtain ⟨s, hs, hp⟩ := exists_ok_of_any hany
  obtain ⟨hfield, htypes, hfilter, hint⟩ := of_decide_eq_true hp
  obtain ⟨_, hwritten⟩ := argumentTypes_iff s {} "search" searchField
  obtain ⟨⟨_, _, hid⟩, hwritten⟩ := List.forall_mem_cons.mp hwritten
  obtain ⟨⟨_, _, hfilters⟩, hwritten⟩ := List.forall_mem_cons.mp hwritten
  obtain ⟨_, _, hsizes⟩ := List.forall_mem_singleton.mp hwritten
  refine ⟨document, s, hparse, hs, hfield, htypes, fun hwritten => ?_, fun hwritten => ?_, ?_⟩
  · exact (hid.mp hwritten).1 rfl
  · exact Bool.false_ne_true (hfilter.symm.trans ((hfilters.mp hwritten).2 rfl))
  · exact hsizes.mpr ⟨by decide, fun _ => hint⟩

/-! ## Schemas of datamodels -/

section Generated

variable {g : TypeGraph} (h : WellFormed g.types)

include h

theorem argumentPart_of_define {x : Handle} {d : NamedType Handle} (hd : define g (fresh g) x = .ok d) :
    ∀ entry ∈ d.body.outputFields, ∀ argument ∈ entry.2.args,
      ∃ y, argument.2.type = .named y ∨ argument.2.type = .nonNull (.named y) := by
  cases x with
  | made r =>
    intro entry hentry argument hargument
    obtain ⟨y, hy, _⟩ := (gives_outputParts h r _ (outputs_of_define hd).1 entry hentry).args argument hargument
    exact ⟨y, hy⟩
  | scalar =>
    cases hd
    exact List.forall_mem_nil _
  | absent =>
    cases hd
    exact List.forall_mem_nil _

/-- No argument of a field is a list. -/
theorem isListed_eq_false {s : Schema} (hs : Assembled g s) {u : NamedType String} (hu : u ∈ s.types) :
    ∀ entry ∈ u.body.outputFields, ∀ argument ∈ entry.2.args, isListed argument.2.type = false := by
  obtain ⟨x, _, d, hd, rfl⟩ := (hs.types u).mp hu
  intro entry hentry argument hargument
  rw [NamedType.map, outputFields_map] at hentry
  obtain ⟨field, hfield, rfl⟩ := List.mem_map.mp hentry
  obtain ⟨made, hmade, rfl⟩ := List.mem_map.mp hargument
  obtain ⟨y, hy | hy⟩ := argumentPart_of_define h hd field hfield made hmade
  · simp only [InputField.map, hy]
    rfl
  · simp only [InputField.map, hy]
    rfl

end Generated

/-- In a client for a datamodel all arguments are written as inputs but identifiers. -/
theorem writtenAsInput_iff_of_parse {database : Database} {source : List Char} {types : List ModelType}
    (h : parse database source = .ok types) {s : Schema} (hs : schema (.ofTypes types) = .ok s)
    {u : NamedType String} (hu : u ∈ s.types) {entry : String × OutputField String}
    (hentry : entry ∈ u.body.outputFields) {argument : String × InputField String}
    (hargument : argument ∈ entry.2.args) :
    WrittenAsInput s argument.2.type ↔ argument.2.type.base ≠ "ID" := by
  have hwf := (wellFormed_of_parse h).ofTypes
  rw [schema_eq_assemble] at hs
  have hlisted := isListed_eq_false hwf (assembled_of_eq_ok hwf hs) hu entry hentry argument hargument
  rw [writtenAsInput_iff, hlisted]
  exact and_iff_left nofun

/-- The identifier that an item of any model is found by is written as one that comes out. -/
theorem identifier_written_as_output : ∃ types s, parse .relational "type A { id: ID! }".toList = .ok types ∧
    schema (.ofTypes types) = .ok s ∧
    ("node", "args: \x7b id: ID_Output \x7d") ∈
      (rootFields s s.query).map (fun entry => (entry.1, parameterList s {} entry.1 entry.2)) ∧
    ¬WrittenAsInput s (.nonNull (.named "ID")) ∧ inputFieldType (.nonNull (.named "ID")) = "ID_Input" := by
  obtain ⟨types, s, h, hs, hnode⟩ : ∃ types s, parse .relational "type A { id: ID! }".toList = .ok types ∧
      schema (.ofTypes types) = .ok s ∧ ("node", "args: \x7b id: ID_Output \x7d") ∈
        (rootFields s s.query).map (fun entry => (entry.1, parameterList s {} entry.1 entry.2)) :=
    exists_schema_of_any (by decide +kernel)
  exact ⟨types, s, h, hs, hnode, fun hwritten => (writtenAsInput_iff.mp hwritten).1 rfl, rfl⟩

end OpenCrud.Client
