import OpenCrud.Sdl.Document
import OpenCrud.Sdl.Scan

/-!
# From tokens to a document

One parser per rule of the grammar, each a function on the tokens that are left. A fault in reading the
tokens counts at the moment when the place reaches it, so the first problem in reading order wins.

## Measure

Type references, values and selection sets recurse on the number of levels that may still be opened.
Repetitions take as many steps as there are tokens, because every repeated item starts with one.
-/

namespace OpenCrud.Sdl

/-- A parser: it reads from the tokens that are left, or finds a fault. -/
abbrev Parser (α : Type) := StateT Tokens (Except PlacedFault) α

namespace Parser

variable {α : Type}

/-! ## The current token -/

/-- Fails if reading the tokens failed at this place. -/
def checkPlace : Parser Unit := do
  match (← get) with
  | { tokens := [], fault := some fault } => throw fault
  | _ => pure ()

/-- The current token. -/
def peek : Parser Token := do
  pure (((← get).tokens.head?.map (·.token)).getD .endOfSource)

/-- The place of the current token. -/
def place : Parser Place := do
  pure (((← get).tokens.head?.map (·.place)).getD [])

/-- The token behind the current one. -/
def lookAhead : Parser Lexeme := do
  match (← get) with
  | { tokens := [_], fault := some fault } => throw fault
  | { tokens := _ :: lexeme :: _, .. } => pure lexeme
  | _ => pure ⟨.endOfSource, []⟩

/-- Moves to the next token. -/
def advance : Parser Unit := do
  modify fun s => { s with tokens := s.tokens.tail }
  checkPlace

/-- Fails at the current token. -/
def fail (fault : Fault) : Parser α := do throw ⟨fault, ← place⟩

/-- Fails because of the current token. -/
def unexpected : Parser α := do fail (.unexpected (← peek))

/-- Whether the current token is a punctuator. -/
def peekIs (p : Punctuator) : Parser Bool := do pure ((← peek) == .punctuator p)

/-- Reads a punctuator. -/
def expect (p : Punctuator) : Parser Unit := do
  let token ← peek
  if token == .punctuator p then advance else fail (.expected (.punctuator p) token)

/-- Reads a punctuator if it is the current token, and tells whether it was. -/
def accept (p : Punctuator) : Parser Bool := do
  if ← peekIs p then
    advance
    pure true
  else pure false

/-- Reads a name. -/
def name : Parser Name := do
  match ← peek with
  | .name n =>
    advance
    pure n
  | token => fail (.expected .name token)

/-- Fails unless the source ends here. -/
def expectEnd : Parser Unit := do
  let token ← peek
  if token != .endOfSource then fail (.expected .endOfSource token)

/-- Whether the current token is a keyword. -/
def peekKeyword (word : String) : Parser Bool := do
  match ← peek with
  | .name n => pure (n.text = word)
  | _ => pure false

/-- Reads a keyword. -/
def expectKeyword (word : String) : Parser Unit := do
  if ← peekKeyword word then advance else fail (.expected (.keyword word) (← peek))

/-- Reads a keyword if it is the current token, and tells whether it was. -/
def acceptKeyword (word : String) : Parser Bool := do
  if ← peekKeyword word then
    advance
    pure true
  else pure false

/-! ## Repetitions -/

/-- The number of steps that any repetition at this place can take. -/
def stepsLeft : Parser Nat := do pure ((← get).tokens.length + 1)

/-- Items up to a closing punctuator, in at most the given number of steps. -/
def itemsUntil (close : Punctuator) (item : Parser α) : Nat → Parser (List α)
  | 0 => unexpected
  | steps + 1 => do
    if ← accept close then pure []
    else
      let first ← item
      let later ← itemsUntil close item steps
      pure (first :: later)

/-- Items in brackets, possibly none. -/
def anyBetween (opening close : Punctuator) (item : Parser α) : Parser (List α) := do
  expect opening
  itemsUntil close item (← stepsLeft)

/-- Items in brackets, at least one. -/
def someBetween (opening close : Punctuator) (item : Parser α) : Parser (List α) := do
  expect opening
  let first ← item
  let later ← itemsUntil close item (← stepsLeft)
  pure (first :: later)

/-- Items in brackets, at least one; or no brackets. -/
def optionalBetween (opening close : Punctuator) (item : Parser α) : Parser (List α) := do
  if ← peekIs opening then someBetween opening close item else pure []

/-- Items with a separator between them, in at most the given number of steps. -/
def separatedBy (separator : Punctuator) (item : Parser α) : Nat → Parser (List α)
  | 0 => unexpected
  | steps + 1 => do
    let first ← item
    if ← accept separator then
      let later ← separatedBy separator item steps
      pure (first :: later)
    else pure [first]

/-- At least one item, with a separator between items and possibly before the first. -/
def separated (separator : Punctuator) (item : Parser α) : Parser (List α) := do
  let _ ← accept separator
  separatedBy separator item (← stepsLeft)

/-! ## Types, values and directives -/

/-- How many lists, objects and selection sets may be open at once. -/
def maxDepth : Nat := 200

/-- A type reference; `depth` more lists may be opened. -/
def typeRef (depth : Nat) : Parser (TypeExpr Name) := do
  let inner ← do
    if ← accept .bracketL then
      match depth with
      | 0 => fail .nestedTooDeeply
      | depth + 1 =>
        let item ← typeRef depth
        expect .bracketR
        pure (TypeExpr.list item)
    else pure (TypeExpr.named (← name))
  if ← accept .bang then pure (.nonNull inner) else pure inner

/-- The value that a bare word stands for. -/
def wordLiteral : String → Literal
  | "true" => .bool true
  | "false" => .bool false
  | "null" => .null
  | word => .enum word

/-- A variable, which a constant value cannot hold. -/
def variableRef (constant : Bool) : Parser Literal := do
  let dollar ← peek
  let start ← place
  expect .dollar
  if constant then
    match ← peek with
    | .name n => throw ⟨.variableInConstant n.text, start⟩
    | _ => throw ⟨.unexpected dollar, start⟩
  else pure (.variable (← name).text)

/-- A value; `depth` more lists and objects may be opened. -/
def literal (constant : Bool) (depth : Nat) : Parser Literal := do
  match ← peek with
  | .punctuator .bracketL =>
    match depth with
    | 0 => fail .nestedTooDeeply
    | depth + 1 => pure (.list (← anyBetween .bracketL .bracketR (literal constant depth)))
  | .punctuator .braceL =>
    match depth with
    | 0 => fail .nestedTooDeeply
    | depth + 1 =>
      let entry : Parser (String × Literal) := do
        let key ← name
        expect .colon
        pure (key.text, ← literal constant depth)
      pure (.object (← anyBetween .braceL .braceR entry))
  | .punctuator .dollar => variableRef constant
  | .int text =>
    advance
    pure (.int text)
  | .float text =>
    advance
    pure (.float text)
  | .string value =>
    advance
    pure (.string value)
  | .blockString value =>
    advance
    pure (.blockString value)
  | .name n =>
    advance
    pure (wordLiteral n.text)
  | _ => unexpected

/-- An argument with its value. -/
def argument (constant : Bool) (depth : Nat) : Parser Argument := do
  let name ← name
  expect .colon
  let place ← place
  let value ← literal constant depth
  pure { name, value, place }

/-- The arguments of a field or a directive. -/
def arguments (constant : Bool) (depth : Nat) : Parser (List Argument) :=
  optionalBetween .parenL .parenR (argument constant depth)

/-- Directives, in at most the given number of steps. -/
def directivesUpTo (constant : Bool) (depth : Nat) : Nat → Parser (List Directive)
  | 0 => unexpected
  | steps + 1 => do
    let place ← place
    if ← accept .at then
      let name ← name
      let arguments ← arguments constant depth
      let later ← directivesUpTo constant depth steps
      pure ({ name, arguments, place } :: later)
    else pure []

/-- The directives at this place, inside an operation `depth` levels from the limit. -/
def directivesAt (constant : Bool) (depth : Nat) : Parser (List Directive) := do
  directivesUpTo constant depth (← stepsLeft)

/-- The directives of a definition. -/
def directives : Parser (List Directive) := directivesAt true maxDepth

/-! ## Parts of type definitions -/

/-- The description at this place, if there is one. -/
def description : Parser (Option String) := do
  match ← peek with
  | .string value | .blockString value =>
    advance
    pure (some value)
  | _ => pure none

/-- An argument of a field, or a field of an input type. A default value is read and dropped. -/
def inputDef : Parser InputDef := do
  let description ← description
  let name ← name
  expect .colon
  let type ← typeRef maxDepth
  if ← accept .equals then
    let _ ← literal true maxDepth
  let directives ← directives
  pure { description, name, type, directives }

/-- A field of an object or an interface. -/
def fieldDef : Parser FieldDef := do
  let description ← description
  let name ← name
  let arguments ← optionalBetween .parenL .parenR inputDef
  expect .colon
  let type ← typeRef maxDepth
  let directives ← directives
  pure { description, name, arguments, type, directives }

/-- A value of an enum. -/
def enumValueDef : Parser EnumValueDef := do
  let description ← description
  let token ← peek
  if token.value?.any reservedValues.contains then fail (.reservedEnumValue token)
  let name ← name
  let directives ← directives
  pure { description, name, directives }

/-- The interfaces that a type implements. -/
def interfaces : Parser (List Name) := do
  if ← acceptKeyword "implements" then separated .amp name else pure []

/-- The fields of an object or an interface. -/
def fields : Parser (List FieldDef) := optionalBetween .braceL .braceR fieldDef

/-- The members of a union. -/
def members : Parser (List Name) := do
  if ← accept .equals then separated .pipe name else pure []

/-- An operation keyword. -/
def operation : Parser Operation := do
  let token ← peek
  let start ← place
  let word ← name
  match Operation.ofKeyword? word.text with
  | some operation => pure operation
  | none => throw ⟨.unexpected token, start⟩

/-- A root type of a schema. -/
def rootDef : Parser (Operation × Name) := do
  let operation ← operation
  expect .colon
  pure (operation, ← name)

/-! ## Type definitions -/

/-- The body of an object or interface definition, behind its keyword. -/
def objectDef (description : Option String) : Parser ObjectDef := do
  let name ← name
  let interfaces ← interfaces
  let directives ← directives
  let fields ← fields
  pure { description, name, interfaces, directives, fields }

/-- The body of an enum definition, behind its keyword. -/
def enumDef (description : Option String) : Parser EnumDef := do
  let name ← name
  let directives ← directives
  let values ← optionalBetween .braceL .braceR enumValueDef
  pure { description, name, directives, values }

/-- The body of an input type definition, behind its keyword. -/
def inputObjectDef (description : Option String) : Parser InputObjectDef := do
  let name ← name
  let directives ← directives
  let fields ← optionalBetween .braceL .braceR inputDef
  pure { description, name, directives, fields }

/-- The body of a union definition, behind its keyword. -/
def unionDef (description : Option String) : Parser UnionDef := do
  let name ← name
  let _ ← directives
  let members ← members
  pure { description, name, members }

/-- The body of a scalar definition, behind its keyword. -/
def scalarDef (description : Option String) : Parser ScalarDef := do
  let name ← name
  let directives ← directives
  pure { description, name, directives }

/-- The body of a schema definition, behind its keyword. -/
def schemaDef (description : Option String) : Parser SchemaDef := do
  let _ ← directives
  let roots ← someBetween .braceL .braceR rootDef
  pure { description, roots }

/-- The name of a place where a directive can be used. -/
def directiveLocation : Parser Unit := do
  let token ← peek
  let start ← place
  let word ← name
  if !directiveLocations.contains word.text then throw ⟨.unexpected token, start⟩

/-- The body of a directive definition, behind its keyword. -/
def directiveDef : Parser OtherDefinition := do
  expect .at
  let _ ← name
  let _ ← optionalBetween .parenL .parenR inputDef
  let _ ← directives
  let _ ← acceptKeyword "repeatable"
  expectKeyword "on"
  let _ ← separated .pipe directiveLocation
  pure .directive

/-! ## Extensions -/

/-- Fails unless an extension added something. -/
def requireContent (anything : Bool) : Parser Unit := do
  if !anything then unexpected

/-- The extension of a kind of definition, behind its keyword. -/
def extensionBody : String → Parser OtherDefinition
  | "schema" => do
    let directives ← directives
    let roots ← optionalBetween .braceL .braceR rootDef
    requireContent (!directives.isEmpty || !roots.isEmpty)
    pure .schemaExtension
  | "scalar" => do
    let _ ← name
    let directives ← directives
    requireContent !directives.isEmpty
    pure .scalarExtension
  | "type" => do
    let d ← objectDef none
    requireContent (!d.interfaces.isEmpty || !d.directives.isEmpty || !d.fields.isEmpty)
    pure .objectExtension
  | "interface" => do
    let d ← objectDef none
    requireContent (!d.interfaces.isEmpty || !d.directives.isEmpty || !d.fields.isEmpty)
    pure .interfaceExtension
  | "union" => do
    let _ ← name
    let directives ← directives
    let members ← members
    requireContent (!directives.isEmpty || !members.isEmpty)
    pure .unionExtension
  | "enum" => do
    let d ← enumDef none
    requireContent (!d.directives.isEmpty || !d.values.isEmpty)
    pure .enumExtension
  | "input" => do
    let _ ← name
    let directives ← directives
    let fields ← optionalBetween .braceL .braceR inputDef
    requireContent (!directives.isEmpty || !fields.isEmpty)
    pure .inputObjectExtension
  | "directive" => do
    expect .at
    let _ ← name
    let directives ← directives
    requireContent !directives.isEmpty
    pure .directiveExtension
  | _ => unexpected

/-- The keywords of the definitions that can be extended. -/
def extendable : List String :=
  ["schema", "scalar", "type", "interface", "union", "enum", "input", "directive"]

/-- An extension. -/
def typeExtension : Parser OtherDefinition := do
  let ⟨token, place⟩ ← lookAhead
  if token.value?.any extendable.contains && token matches .name _ then
    advance
    let word ← name
    extensionBody word.text
  else throw ⟨.unexpected token, place⟩

/-! ## Operations and fragments -/

/-- The name of a fragment, which cannot be `on`. -/
def fragmentName : Parser Unit := do
  let token ← peek
  if token.value? = some "on" then unexpected
  let _ ← name

/-- The field of a selection, given how to read a selection set inside it. -/
def selectedField (depth : Nat) (inner : Parser Unit) : Parser Unit := do
  let _ ← name
  if ← accept .colon then
    let _ ← name
  let _ ← arguments false depth
  let _ ← directivesAt false depth
  if ← peekIs .braceL then inner

/-- The spread of a selection, given how to read a selection set inside it. -/
def spread (depth : Nat) (inner : Parser Unit) : Parser Unit := do
  expect .spread
  if ← acceptKeyword "on" then
    let _ ← name
    let _ ← directivesAt false depth
    inner
  else
    match ← peek with
    | .name _ =>
      fragmentName
      let _ ← directivesAt false depth
    | _ =>
      let _ ← directivesAt false depth
      inner

/-- A selection set, which may be empty; `depth` more levels may be opened. The limit counts before the
opening brace is looked for. -/
def selectionSet : (depth : Nat) → Parser Unit
  | 0 => fail .nestedTooDeeply
  | depth + 1 => do
    let selection : Parser Unit := do
      if ← peekIs .spread then spread depth (selectionSet depth)
      else selectedField depth (selectionSet depth)
    let _ ← anyBetween .braceL .braceR selection

/-- A variable of an operation. -/
def variableDef : Parser Unit := do
  let _ ← description
  let _ ← variableRef false
  expect .colon
  let _ ← typeRef maxDepth
  if ← accept .equals then
    let _ ← literal true maxDepth
  let _ ← directives

/-- An operation behind its description. -/
def operationDef : Parser OtherDefinition := do
  let _ ← operation
  match ← peek with
  | .name _ => let _ ← name
  | _ => pure ()
  let _ ← optionalBetween .parenL .parenR variableDef
  let _ ← directivesAt false maxDepth
  selectionSet maxDepth
  pure .operation

/-- A fragment definition, behind its keyword. -/
def fragmentDef : Parser OtherDefinition := do
  fragmentName
  expectKeyword "on"
  let _ ← name
  let _ ← directivesAt false maxDepth
  selectionSet maxDepth
  pure .fragment

/-! ## Definitions -/

/-- The definition that a keyword starts, with the description before it. -/
def definitionOf (described : Bool) : String → Parser Definition
  | "schema" => do
    let text ← description
    advance
    pure (.schema (← schemaDef text))
  | "scalar" => do
    let text ← description
    advance
    pure (.scalar (← scalarDef text))
  | "type" => do
    let text ← description
    advance
    pure (.object (← objectDef text))
  | "interface" => do
    let text ← description
    advance
    pure (.interface (← objectDef text))
  | "union" => do
    let text ← description
    advance
    pure (.union (← unionDef text))
  | "enum" => do
    let text ← description
    advance
    pure (.enum (← enumDef text))
  | "input" => do
    let text ← description
    advance
    pure (.inputObject (← inputObjectDef text))
  | "directive" => do
    let _ ← description
    advance
    pure (.other (← directiveDef))
  | "query" | "mutation" | "subscription" => do
    let _ ← description
    pure (.other (← operationDef))
  | "fragment" => do
    let _ ← description
    advance
    pure (.other (← fragmentDef))
  | word =>
    if described then fail .misplacedDescription
    else if word = "extend" then do pure (.other (← typeExtension))
    else unexpected

/-- A definition. -/
def definition : Parser Definition := do
  match ← peek with
  | .punctuator .braceL =>
    selectionSet maxDepth
    pure (.other .operation)
  | .string _ | .blockString _ =>
    match ← lookAhead with
    | ⟨.punctuator .braceL, _⟩ => fail .describedShorthand
    | ⟨.name n, _⟩ => definitionOf true n.text
    | ⟨token, place⟩ => throw ⟨.unexpected token, place⟩
  | .name n => definitionOf false n.text
  | _ => unexpected

/-- Definitions up to the end of the source, at least one, in at most the given number of steps. -/
def definitions : Nat → Parser Document
  | 0 => unexpected
  | steps + 1 => do
    let first ← definition
    if (← peek) == .endOfSource then pure [first]
    else
      let later ← definitions steps
      pure (first :: later)

end Parser

/-- What a parser finds in a source, from its first token on. -/
def Parser.parse {α : Type} (parser : Parser α) (source : List Char) : Except PlacedFault α := do
  let whole : Parser α := do
    checkPlace
    parser
  let (result, _) ← whole.run (Tokens.scan source)
  pure result

/-- The document of a source, or the first fault in it. -/
def Document.parse (source : List Char) : Except PlacedFault Document :=
  Parser.parse (do Parser.definitions (← Parser.stepsLeft)) source

/-- The type reference that a source consists of, or the first fault in it. -/
def parseTypeRef (source : List Char) : Except PlacedFault (TypeExpr Name) :=
  Parser.parse (do
    let type ← Parser.typeRef Parser.maxDepth
    Parser.expectEnd
    pure type) source

end OpenCrud.Sdl
