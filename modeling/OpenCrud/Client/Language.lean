import OpenCrud.Scalar

/-!
# Languages of clients

The bindings for the two languages differ in a handful of lines: the head of the file, what is imported, how
an existence check is declared, what is exported, and the type that stands for a moment in time.
-/

namespace OpenCrud.Client

/-- A language that bindings can be written in. -/
inductive Language where
  | typescript
  | flow
  deriving DecidableEq, Repr

namespace Language

/-- The name of a language. -/
def name : Language → String
  | .typescript => "typescript"
  | .flow => "flow"

/-- Every language, in the order of their names. -/
def all : List Language := [.flow, .typescript]

/-- The language of a name. -/
def ofName? (name : String) : Option Language := all.find? (·.name = name)

/-- The type that stands for a scalar of the closed set. -/
def typeOfScalar (language : Language) : Scalar → String
  | .int | .float => "number"
  | .string | .long | .uuid => "string"
  | .id => "string | number"
  | .boolean => "boolean"
  | .json => "any"
  | .dateTime =>
    match language with
    | .typescript => "Date | string"
    | .flow => "string"

/-- The type that stands for the scalar of a name; a scalar that is not known is a text. -/
def typeOfScalarNamed (language : Language) (name : String) : String :=
  ((Scalar.ofName? name).map language.typeOfScalar).getD "string"

/-- The lines that come before the imports. -/
def head : Language → String
  | .typescript => ""
  | .flow => "/**\n * @flow\n */\n"

/-- What the bindings import. -/
def imports : Language → String
  | .typescript =>
    "import \x7b GraphQLResolveInfo, GraphQLSchema \x7d from 'graphql'\n" ++
    "import \x7b IResolvers \x7d from 'graphql-tools/dist/Interfaces'\n" ++
    "import \x7b BasePrismaOptions as BPOType, Options \x7d from 'prisma-binding'\n" ++
    "import \x7b makePrismaBindingClass \x7d from 'prisma-binding'"
  | .flow =>
    "import type \x7b GraphQLResolveInfo, GraphQLSchema \x7d from 'graphql'\n" ++
    "import type \x7b IResolvers \x7d from 'graphql-tools'\n" ++
    "import type \x7b BasePrismaOptions as BPOType, Options \x7d from 'prisma-lib'\n" ++
    "import \x7b makePrismaBindingClass \x7d from 'prisma-lib'"

/-- The check whether there is an item of a type that a filter selects. -/
def existsEntry (language : Language) (typeName filterType : String) : String :=
  match language with
  | .typescript => "  " ++ typeName ++ ": (where?: " ++ filterType ++ ") => Promise<boolean>"
  | .flow => "  " ++ typeName ++ "(where?: " ++ filterType ++ "): Promise<boolean>;"

/-- What the bindings export, given the arguments of their constructor. -/
def exports (language : Language) (args : String) : String :=
  match language with
  | .typescript =>
    "export const Prisma = makePrismaBindingClass<BindingConstructor<Prisma>>(" ++ args ++ ")"
  | .flow =>
    "const prisma: BindingConstructor<Prisma> = makePrismaBindingClass(" ++ args ++ ")\n" ++
    "export \x7b prisma as Prisma \x7d"

end Language

end OpenCrud.Client
