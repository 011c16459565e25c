import OpenCrud.Client.Source
import OpenCrud.Datamodel.Parse
import OpenCrud.Generate.Assemble

/-!
# From a datamodel to a schema and a client

The whole way in one step: a source text becomes types, the types a schema, and the schema is printed or
turned into the bindings of a client.
-/

namespace OpenCrud

/-- Why a source text cannot be compiled: it is no datamodel, or a type cannot be generated. -/
inductive CompileError where
  | datamodel (e : Datamodel.Error)
  | generation (e : Generate.Error)

/-- The text of an error. -/
def CompileError.message : CompileError → String
  | .datamodel e => e.message
  | .generation e => e.message

/-- The types of a source text. -/
def compileTypes (database : Database) (source : String) : Except CompileError (List ModelType) :=
  (Datamodel.parse database source.toList).mapError .datamodel

/-- The schema of a list of types. -/
def compileSchema (types : List ModelType) : Except CompileError Schema :=
  (Generate.printableSchema (.ofTypes types)).mapError .generation

/-- The schema of a source text as text. -/
def schemaText (database : Database) (source : String) : Except CompileError String := do
  let schema ← compileSchema (← compileTypes database source)
  return schema.print

/-- The bindings of a client for a source text. -/
def clientText (database : Database) (language : Client.Language) (options : ClientOptions)
    (source : String) : Except CompileError String := do
  let types ← compileTypes database source
  let schema ← compileSchema types
  return Client.source language schema types options

end OpenCrud
