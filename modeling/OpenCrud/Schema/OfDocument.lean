import OpenCrud.Schema.LiteralText
import OpenCrud.Schema.Print
import OpenCrud.Schema.Reach

/-!
# Schemas from documents

A document that defines types is a schema. Its types come in the order of the document, and the scalars that
every schema has come where they are first used. Without a definition of the root types, the types called
`Query`, `Mutation` and `Subscription` are the roots.

Scalars are looked at first, in the order of the document. The references and directives of the other types
count when a type has its turn, and those of the values of an enum only when the enum is shown.
-/

namespace OpenCrud

/-! ## Problems -/

/-- What is wrong with the argument of a directive. -/
inductive ArgumentProblem where
  | missing
  | null
  | notText (value : Sdl.Literal)

/-- The text of a problem with an argument, which has to be a text. -/
def ArgumentProblem.message (name : String) : ArgumentProblem → String
  | .missing => "Argument '" ++ name ++ "' of required type 'String!' was not provided."
  | .null =>
    "Argument '" ++ name
      ++ "' has invalid value: Expected value of non-null type 'String!' not to be None."
  | .notText value =>
    "Argument '" ++ name ++ "' has invalid value: String cannot represent a non string value: "
      ++ String.ofList value.print

/-- Why a part of a document makes no part of a schema. -/
inductive DocumentProblem where
  | unknownType (name : String)
  | badArgument (name : String) (problem : ArgumentProblem) (place : Option Sdl.Place)

/-- The text of a problem, given the source of the document. It ends with the place of the problem, if that is
known. -/
def DocumentProblem.message (source : List Char) : DocumentProblem → String
  | .unknownType name => "Unknown type: '" ++ name ++ "'."
  | .badArgument name problem none => problem.message name
  | .badArgument name problem (some place) =>
    problem.message name ++ "\n\n" ++ place.render source

/-- Why a document makes no schema: a problem, and the part of the type that it was found in. -/
structure DocumentError where
  problem : DocumentProblem
  within : Option (String × String) := none

/-- The text of an error, given the source of the document. -/
def DocumentError.message (source : List Char) (e : DocumentError) : String :=
  let text := e.problem.message source
  match e.within with
  | none => text
  | some (typeName, part) => typeName ++ " " ++ part ++ " cannot be resolved. " ++ text

namespace Schema.OfDocument

open Sdl

/-! ## Directives -/

/-- The text of an argument. Lists and objects are refused without their place. -/
def argumentText (argument : Argument) : Except DocumentProblem String :=
  let fail (problem : ArgumentProblem) (place : Option Place) :=
    .error (.badArgument argument.name.text problem place)
  match argument.value with
  | .string text | .blockString text => .ok text
  | .null => fail .null argument.place
  | value@(.list _) | value@(.object _) => fail (.notText value) none
  | value => fail (.notText value) argument.place

/-- The reason why an item is deprecated, if it is. Of several reasons the last counts. -/
def deprecation (directives : List Directive) : Except DocumentProblem (Option String) :=
  match findDirective? directives "deprecated" with
  | none => .ok none
  | some d =>
    match d.lastArgument? "reason" with
    | none => .ok (some noDeprecationReason)
    | some argument => (argumentText argument).map some

/-- Where a scalar is specified, if it says so. -/
def specification (directives : List Directive) : Except DocumentProblem (Option String) :=
  match findDirective? directives "specifiedBy" with
  | none => .ok none
  | some d =>
    match d.lastArgument? "url" with
    | none => .error (.badArgument "url" .missing (some d.place))
    | some argument => (argumentText argument).map some

/-! ## Definitions -/

section Parts

variable (isKnown : String → Bool)

/-- A reference to a type, which has to be known. -/
def reference (name : Name) : Except DocumentProblem String :=
  if isKnown name.text then .ok name.text else .error (.unknownType name.text)

/-- The type of a field or an argument. -/
def typeRef (type : TypeExpr Name) : Except DocumentProblem (TypeExpr String) := do
  let _ ← reference isKnown type.base
  return type.map Name.text

/-- The entry of an argument or of a field of an input type. -/
def inputEntry (d : InputDef) : Except DocumentProblem (String × InputField String) := do
  let type ← typeRef isKnown d.type
  let deprecation ← deprecation d.directives
  return (d.name.text, { type, description := d.description, deprecation })

/-- The entry of a field of an object or an interface. -/
def outputEntry (d : FieldDef) : Except DocumentProblem (String × OutputField String) := do
  let type ← typeRef isKnown d.type
  let args ← d.arguments.mapM (inputEntry isKnown)
  let deprecation ← deprecation d.directives
  return (d.name.text, { type, args := .ofEntries args, description := d.description, deprecation })

/-- The entry of a value of an enum. What is wrong with its reason counts only when the enum is shown. -/
def valueEntry (d : EnumValueDef) : String × EnumValue :=
  (d.name.text,
    { description := d.description, deprecation := (deprecation d.directives).toOption.join })

/-- Says of a problem that it was found in a part of a type. -/
def within {α : Type} (name : Name) (part : String) :
    Except DocumentProblem α → Except DocumentError α
  | .ok a => .ok a
  | .error problem => .error { problem, within := some (name.text, part) }

/-- Says of a problem that it counts without the part of a type that it was found in. -/
def outright {α : Type} : Except DocumentProblem α → Except DocumentError α
  | .ok a => .ok a
  | .error problem => .error { problem }

/-- The interfaces and the fields of an object or an interface. -/
def objectParts (d : ObjectDef) :
    Except DocumentError (List String × FieldMap (OutputField String)) := do
  let interfaces ← within d.name "interfaces" (d.interfaces.mapM (reference isKnown))
  let fields ← within d.name "fields" (d.fields.mapM (outputEntry isKnown))
  return (interfaces, .ofEntries fields)

/-- What makes up a scalar. -/
def scalarBody (d : ScalarDef) : Except DocumentError (TypeBody String) := do
  return .scalar (← outright (specification d.directives))

/-- The first thing that is wrong with the values of an enum. -/
def enumFault? (d : EnumDef) : Option DocumentError :=
  match outright (d.values.mapM fun value => deprecation value.directives) with
  | .error e => some e
  | .ok _ => none

/-- The type that a definition declares. -/
def namedType? : Definition → Option (Except DocumentError (NamedType String))
  | .object d => some do
    let (interfaces, fields) ← objectParts isKnown d
    return ⟨d.name.text, d.description, .object interfaces fields⟩
  | .interface d => some do
    let (interfaces, fields) ← objectParts isKnown d
    return ⟨d.name.text, d.description, .interface interfaces fields⟩
  | .enum d => some (.ok ⟨d.name.text, d.description, .enum (.ofEntries (d.values.map valueEntry))⟩)
  | .union d => some do
    let members ← within d.name "types" (d.members.mapM (reference isKnown))
    return ⟨d.name.text, d.description, .union members⟩
  | .inputObject d => some do
    let fields ← within d.name "fields" (d.fields.mapM (inputEntry isKnown))
    return ⟨d.name.text, d.description, .inputObject (.ofEntries fields) (hasDirective d.directives "oneOf")⟩
  | .scalar d => some do return ⟨d.name.text, d.description, ← scalarBody d⟩
  | .schema _ | .other _ => none

end Parts

/-- Looks at the scalars, which count before any reference is followed. What every schema has is not defined
anew. -/
def checkScalars (document : Document) : Except DocumentError Unit :=
  document.forM fun
    | .scalar d => if isReservedName d.name.text then pure () else discard (scalarBody d)
    | _ => pure ()

/-- The definition of the root types. Of several definitions the last counts. -/
def schemaDef? (document : Document) : Option SchemaDef :=
  document.reverse.findSome? fun
    | .schema d => some d
    | _ => none

/-! ## Resolving references -/

/-- Whether a name is that of a type of a document or of every schema. -/
def isKnownIn (document : Document) (name : String) : Bool :=
  isReservedName name || document.any fun d => d.typeName?.any (·.text = name)

/-- The types of a document by name. Of several definitions of one name the last counts. -/
def declared (document : Document) : FieldMap (Except DocumentError (NamedType String)) :=
  .ofEntries (document.filterMap fun d => do
    return ((← d.typeName?).text, ← namedType? (isKnownIn document) d))

/-- The type of a name. What every schema has takes the place of a definition under its name. -/
def define (types : FieldMap (Except DocumentError (NamedType String))) (name : String) :
    Except DocumentError (NamedType String) :=
  match (Scalar.ofName? name).filter (!·.isCustom) with
  | some s => .ok (.ofScalar s)
  | none =>
    match Introspection.find? name with
    | some t => .ok t
    | none => (types.find? name).getD (.error { problem := .unknownType name })

/-- The root types that a document names, all of which have to be known; of several root types of one
operation the last counts. Where none are named, the types under the usual names are the roots. -/
def rootNames (document : Document) : Except DocumentError (Operation → Option String) :=
  match schemaDef? document with
  | none => .ok fun operation =>
    some operation.defaultTypeName |>.filter (isKnownIn document)
  | some d =>
    match d.roots.find? fun root => !isKnownIn document root.2.text with
    | some (_, name) => .error { problem := .unknownType name.text }
    | none => .ok fun operation => (d.roots.reverse.lookup operation).map Name.text

end Schema.OfDocument

open Schema.OfDocument in
/-- The schema of a document. -/
def Schema.ofDocument (document : Sdl.Document) : Except DocumentError Schema := do
  checkScalars document
  let types := declared document
  let root ← rootNames document
  let (query, mutation, subscription) := (root .query, root .mutation, root .subscription)
  let roots := query.toList ++ mutation.toList ++ subscription.toList
    ++ [Scalar.boolean.name, Scalar.string.name]
  let bound := types.length + Scalar.all.length + introspectionNames.length
  let found ← Reach.types (define types) (fun _ => false) bound types.keys roots
  return {
    types := (found.map Prod.snd).filter fun t => !introspectionNames.contains t.name
    query, mutation, subscription
    description := (schemaDef? document).bind (·.description) }

open Schema.OfDocument in
/-- Why the type of a name cannot be shown, if it is an enum of a document. Of several definitions of the name
the last counts. -/
def Schema.showFault? (document : Sdl.Document) (name : String) : Option DocumentError :=
  if isReservedName name then none
  else match document.reverse.find? fun d => d.typeName?.any (·.text = name) with
    | some (.enum d) => enumFault? d
    | _ => none

end OpenCrud
