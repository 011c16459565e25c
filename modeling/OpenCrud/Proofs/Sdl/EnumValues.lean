import OpenCrud.Proofs.Computation
import OpenCrud.Sdl.Grammar

/-!
# Enum values of documents

No enum in a document has a value that is called like a literal (`values_of_parse`). The grammar looks at the name
of a value before it reads it; nothing else makes values of enums.

What is known of everything that a parser can find is told by `Parser.Finds`, and follows the parser's parts.
-/

namespace OpenCrud.Sdl

namespace Parser

variable {α β : Type}

/-! ## What parsers find -/

/-- A parser finds nothing without a property, from whatever tokens it reads. It may fail. -/
def Finds (P : α → Prop) (p : Parser α) : Prop :=
  ∀ s, Gives (fun found => P found.1) (p.run s)

section Finds

variable {P : α → Prop} {Q : β → Prop} {p : Parser α}

theorem finds_pure {a : α} (h : P a) : Finds P (pure a : Parser α) := fun _ => gives_ok h

theorem finds_throw (e : PlacedFault) : Finds P (throw e : Parser α) := fun _ _ h => by cases h

/-- What the first parser finds may decide what the second one finds. -/
theorem Finds.bind {f : α → Parser β} (hp : Finds P p) (hf : ∀ a, P a → Finds Q (f a)) : Finds Q (p >>= f) :=
  fun s => (hp s).bind fun found hfound => hf found.1 hfound found.2

/-- Where a parser goes on in the same way with all that it finds, this does not matter. -/
theorem finds_bind {f : α → Parser β} (hf : ∀ a, Finds Q (f a)) : Finds Q (p >>= f) :=
  fun _ => gives_bind fun found => hf found.1 found.2

theorem finds_ite {c : Prop} [Decidable c] {q : Parser α} (hp : c → Finds P p) (hq : ¬c → Finds P q) :
    Finds P (if c then p else q) := by
  split
  · exact hp ‹c›
  · exact hq ‹¬c›

/-- A parser that fails finds nothing, so whatever it finds has any property. -/
theorem finds_fail (fault : Fault) : Finds P (fail fault : Parser α) := finds_bind fun _ => finds_throw _

theorem finds_unexpected : Finds P (unexpected : Parser α) := finds_bind fun _ => finds_fail _

/-! ## Repetitions -/

/-- Repeated items are found by one parser, item by item. -/
theorem finds_itemsUntil (h : Finds P p) (close : Punctuator) (steps : Nat) :
    Finds (fun items => ∀ a ∈ items, P a) (itemsUntil close p steps) := by
  induction steps with
  | zero => exact finds_unexpected
  | succ steps ih =>
    refine finds_bind fun closed => finds_ite (fun _ => finds_pure (List.forall_mem_nil _)) fun _ => ?_
    exact h.bind fun first hfirst => ih.bind fun later hlater =>
      finds_pure (List.forall_mem_cons.mpr ⟨hfirst, hlater⟩)

theorem finds_optionalBetween (h : Finds P p) (opening close : Punctuator) :
    Finds (fun items => ∀ a ∈ items, P a) (optionalBetween opening close p) := by
  refine finds_bind fun opened => finds_ite (fun _ => ?_) fun _ => finds_pure (List.forall_mem_nil _)
  refine finds_bind fun _ => h.bind fun first hfirst => finds_bind fun steps => ?_
  exact (finds_itemsUntil h close steps).bind fun later hlater =>
    finds_pure (List.forall_mem_cons.mpr ⟨hfirst, hlater⟩)

end Finds

/-! ## Values of enums -/

/-- A value of an enum that is not called like a literal. -/
def PlainValue (v : EnumValueDef) : Prop := v.name.text ∉ reservedValues

/-- An enum whose values are not called like literals. -/
def PlainEnum (d : Definition) : Prop := ∀ e, d = .enum e → ∀ v ∈ e.values, PlainValue v

/-- The token that is looked at next. -/
def current (s : Tokens) : Token := (s.tokens.head?.map (·.token)).getD .endOfSource

/-- Looking at a token goes on with the current one. -/
theorem run_peek_bind {β : Type} (f : Token → Parser β) (s : Tokens) :
    (peek >>= f).run s = (f (current s)).run s := rfl

/-- A name is the text of the current token. -/
theorem value?_of_name {s : Tokens} : Gives (fun found => (current s).value? = some found.1.text) (name.run s) := by
  rw [name, run_peek_bind]
  split
  · rename_i hcurrent
    exact gives_bind fun _ => gives_ok (by rw [hcurrent]; rfl)
  · exact fun found hfound => (finds_fail (P := fun _ => False) _ s found hfound).elim

/-- The parser of values refuses the three words that are no names of values. -/
theorem finds_enumValueDef : Finds PlainValue enumValueDef := by
  -- The name is read at the token that has just been looked at.
  refine finds_bind fun description => fun s => ?_
  rw [run_peek_bind]
  dsimp only
  split
  · exact (finds_fail (P := fun _ => False) _).bind (fun _ hnone => hnone.elim) s
  · rename_i hplain
    refine value?_of_name.bind fun found hfound => ?_
    refine finds_bind (fun directives => finds_pure ?_) found.2
    rw [hfound] at hplain
    simpa [PlainValue] using hplain

/-! ## Documents -/

theorem finds_enumDef (description : Option String) :
    Finds (fun d => ∀ v ∈ d.values, PlainValue v) (enumDef description) :=
  finds_bind fun _ => finds_bind fun _ =>
    (finds_optionalBetween finds_enumValueDef .braceL .braceR).bind fun _ hvalues => finds_pure hvalues

theorem finds_other (p : Parser OtherDefinition) : Finds PlainEnum (p >>= fun kind => pure (.other kind)) :=
  finds_bind fun _ => finds_pure fun _ h => by cases h

/-- Only one keyword starts an enum. -/
theorem finds_definitionOf (described : Bool) (word : String) :
    Finds PlainEnum (definitionOf described word) := by
  unfold definitionOf
  split
  case h_6 =>
    refine finds_bind fun text => finds_bind fun _ => (finds_enumDef text).bind fun d hd => finds_pure ?_
    rintro _ ⟨⟩
    exact hd
  case h_8 | h_12 => exact finds_bind fun _ => finds_bind fun _ => finds_other _
  case h_9 | h_10 | h_11 => exact finds_bind fun _ => finds_other _
  case h_13 =>
    refine finds_ite (fun _ => finds_fail _) fun _ => ?_
    exact finds_ite (fun _ => finds_other _) fun _ => finds_unexpected
  all_goals
    exact finds_bind fun _ => finds_bind fun _ => finds_bind fun _ => finds_pure fun _ h => by cases h

/-- Only the parser of enums finds enums. -/
theorem finds_definition : Finds PlainEnum definition := by
  refine finds_bind fun token => ?_
  split
  · exact finds_bind fun _ => finds_pure fun _ h => by cases h
  · refine finds_bind fun lexeme => ?_
    split
    · exact finds_fail _
    · exact finds_definitionOf true _
    · exact finds_throw _
  · refine finds_bind fun lexeme => ?_
    split
    · exact finds_fail _
    · exact finds_definitionOf true _
    · exact finds_throw _
  · exact finds_definitionOf false _
  · exact finds_unexpected

theorem finds_definitions (steps : Nat) :
    Finds (fun document => ∀ d ∈ document, PlainEnum d) (definitions steps) := by
  induction steps with
  | zero => exact finds_unexpected
  | succ steps ih =>
    refine finds_definition.bind fun first hfirst => finds_bind fun token => ?_
    refine finds_ite (fun _ => finds_pure (List.forall_mem_singleton.mpr hfirst)) fun _ => ?_
    exact ih.bind fun later hlater => finds_pure (List.forall_mem_cons.mpr ⟨hfirst, hlater⟩)

end Parser

/-- No enum of a document has a value that is called like a literal. -/
theorem values_of_parse {source : List Char} {document : Document} (h : Document.parse source = .ok document)
    {d : EnumDef} (hd : .enum d ∈ document) : ∀ v ∈ d.values, v.name.text ∉ reservedValues := by
  have hwhole : Parser.Finds (fun document => ∀ d ∈ document, Parser.PlainEnum d) (do
      Parser.checkPlace
      Parser.definitions (← Parser.stepsLeft)) :=
    Parser.finds_bind fun _ => Parser.finds_bind fun steps => Parser.finds_definitions steps
  obtain ⟨found, hfound, h⟩ := bind_eq_ok_iff.mp h
  cases h
  exact hwhole _ found hfound _ hd d rfl

end OpenCrud.Sdl
