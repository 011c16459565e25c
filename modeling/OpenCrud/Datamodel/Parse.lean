import OpenCrud.Datamodel.Check
import OpenCrud.Datamodel.Declare
import OpenCrud.Datamodel.Relation
import OpenCrud.Sdl.Grammar

/-!
# Reading a datamodel

A source text becomes a document, the document a list of types. The types are checked together and their
relations linked. The first problem ends the reading.
-/

namespace OpenCrud.Datamodel

/-- The types of a document. -/
def ofDocument (database : Database) (document : Sdl.Document) : Except Error (List ModelType) := do
  let types ← declareTypes database [] document
  checkGeneratedNames types
  checkRootFields types
  checkReferences types
  pure (linkRelations types)

/-- The types of a source text. -/
def parse (database : Database) (source : List Char) : Except Error (List ModelType) :=
  match Sdl.Document.parse source with
  | .ok document => ofDocument database document
  | .error e => .error { problem := .malformed e.fault }

end OpenCrud.Datamodel
