import OpenCrud.Generate.Build
import OpenCrud.Schema.Lookup
import OpenCrud.Schema.Reach

/-!
# Assembling a schema

The schema of a datamodel holds the types of the datamodel, the two root types if there are models, and all
that these reach. Types of the datamodel come first and in their own order.
-/

namespace OpenCrud.Generate

section Assemble

variable {m : Type → Type} [Monad m] [MonadExceptOf Error m] (g : TypeGraph) (ask : Ask m)

/-- More types than a schema of the graph can have. -/
def typeBound : Nat := 20 * g.types.length + 20

/-- The request for a type of the datamodel itself. -/
def ownRequest (t : ModelType) : Request := .of (if t.isEnum then .scalar else .object) t.name

/-- The answer to a request for a root type. There are none without models. -/
def rootType (kind : Kind) : m (Option Handle) :=
  if g.models.isEmpty then pure none else ask (.shared kind)

/-- The schema of a datamodel. -/
def assemble : m Schema := do
  let query ← rootType g ask .query
  let mutation ← rootType g ask .mutation
  let own ← g.types.mapM fun t => ask (ownRequest t)
  let roots := query.toList ++ mutation.toList ++ [.scalar .boolean, .scalar .string]
  let found ← Schema.Reach.types (define g ask) (· = .absent) (typeBound g) (own.filterMap id) roots
  match Schema.Reach.repeatedName? [] (found.map fun entry => entry.2.name) with
  | some name => throw (.repeatedTypeName name)
  | none => return {
      types := found.map fun entry => entry.2.map Handle.name
      query := query.map Handle.name
      mutation := mutation.map Handle.name }

end Assemble

/-- The schema of a datamodel, with what the run that generated it remembers. -/
def schemaRun (g : TypeGraph) : Except Error Schema × Cache := (assemble g (answer g)).run {}

/-- The schema of a datamodel. -/
def schema (g : TypeGraph) : Except Error Schema := (schemaRun g).1

/-- The schema of a datamodel, if it can be printed. -/
def printableSchema (g : TypeGraph) : Except Error Schema := do
  let s ← schema g
  match s.valueFault? with
  | some fault => throw (.badName fault)
  | none => return s

end OpenCrud.Generate
