import OpenCrud.Client.Declaration
import OpenCrud.Client.Method
import OpenCrud.Datamodel.Basic
import OpenCrud.Options
import OpenCrud.Schema.Print

/-!
# Bindings

The source text of a client: what it imports, the methods for the root types, the schema, a declaration for
every type, and what it exports. A section without content is left out with its heading.
-/

namespace OpenCrud.Client

/-! ## Sections -/

/-- The existence checks of a client. -/
def existenceChecks (language : Language) (s : Schema) : String :=
  match s.root? s.query with
  | none => ""
  | some t =>
    "\n".intercalate ((filteredTypes t.body.outputFields).map fun pair =>
      language.existsEntry pair.1 pair.2)

/-- One character of the schema between backticks. -/
def escapeBacktick (c : Char) : List Char := if c = '\x60' then ['\\', c] else [c]

/-- The schema as a constant. -/
def typeDefs (s : Schema) : String :=
  String.ofList ("const typeDefs = ".toList ++ '\x60' :: s.print.toList.flatMap escapeBacktick
    ++ ['\x60'])

/-- An entry of the table of models. -/
def modelEntry (t : ModelType) : String :=
  "  \x7b\n    name: '" ++ t.name ++ "',\n    embedded: "
    ++ (if t.isEmbedded then "true" else "false") ++ "\n  \x7d"

/-- The table of the types of the datamodel that are no enums. -/
def models (types : List ModelType) : String :=
  match types.filter (!·.isEnum) with
  | [] => ""
  | shown => "export const models = [\n" ++ ",\n".intercalate (shown.map modelEntry) ++ "\n]"

/-- An argument of the constructor, unless its expression is absent or empty. -/
def constructorArg (name : String) (expression : Option String) : String :=
  match expression with
  | none => ""
  | some text => if text.isEmpty then "" else ", " ++ name ++ ": " ++ text

/-- The arguments of the constructor. -/
def constructorArgs (options : ClientOptions) : String :=
  "\x7btypeDefs" ++ constructorArg "endpoint" options.endpoint
    ++ constructorArg "secret" options.secret ++ "\x7d"

/-- What the bindings export. -/
def exports (language : Language) (options : ClientOptions) : String :=
  language.exports (constructorArgs options)

/-! ## The whole text -/

/-- A text around a content, if there is content. -/
def around (before content after : String) : String :=
  if content.isEmpty then "" else before ++ content ++ after

/-- A comment that heads a section. -/
def heading (indent title : String) : String :=
  "\n" ++ indent ++ "/**\n" ++ indent ++ " * " ++ title ++ "\n" ++ indent ++ " */\n\n"

/-- The interface that clients have. -/
def clientInterface (s : Schema) : String :=
  "export interface Prisma \x7b\n" ++
  "  $exists: Exists;\n" ++
  "  $request(query: string, variables?: \x7b[key: string]: any\x7d): Promise<any>;\n" ++
  "  $delegate: Delegate;\n" ++
  "  $getAbstractResolvers(filterSchema?: GraphQLSchema | string): IResolvers;\n" ++
  around (heading "  " "Queries") (queries s) ";\n" ++
  around (heading "  " "Mutations") (mutations s) ";\n" ++
  "\x7d\n"

/-- The interfaces of the delegates. -/
def delegateInterfaces (s : Schema) : String :=
  let queries := delegateQueries s
  let mutations := delegateMutations s
  "export interface Delegate \x7b\n" ++
  "  (parentInfo: GraphQLResolveInfo, mutation: string, args: any): Promise<any>;\n" ++
  (if queries.isEmpty then "" else "  query: DelegateQuery;\n") ++
  (if mutations.isEmpty then "" else "  mutation: DelegateMutation;\n") ++
  "\x7d\n" ++
  around "\nexport interface DelegateQuery \x7b\n" queries "\n\x7d\n" ++
  around "\nexport interface DelegateMutation \x7b\n" mutations "\n\x7d\n"

/-- The source text of a client for a schema, with a table of the types that the schema came from. -/
def source (language : Language) (s : Schema) (types : List ModelType) (options : ClientOptions) :
    String :=
  language.head ++ language.imports ++ "\n\n" ++
  "export interface Exists \x7b\n" ++ existenceChecks language s ++ "\n\x7d\n\n" ++
  "export interface Node \x7b\x7d\n\n" ++
  clientInterface s ++ "\n" ++
  delegateInterfaces s ++ "\n" ++
  "export interface BindingConstructor<T> \x7b\n  new(options?: BPOType): T\n\x7d\n" ++
  heading "" "Type Defs" ++ typeDefs s ++ "\n" ++
  heading "" "Types" ++ declareAll language s ++ "\n" ++
  around (heading "" "Model Metadata") (models types) "\n" ++
  heading "" "Client" ++ exports language options ++ "\n"

end OpenCrud.Client
