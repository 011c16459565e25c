import OpenCrud.Datamodel.Basic
import OpenCrud.Generate.Request

/-!
# Runs

A run answers requests for the types of one schema. It remembers every answer, also that there is no such
type, so a request is worked out once and a type that refers to itself refers to one type.

What can go wrong in a run is an `Error`. A run remembers what it worked out before an error.
-/

namespace OpenCrud.Generate

/-! ## Errors -/

/-- Why a type cannot be generated. -/
inductive Error where
  | notAScalar (name : String)
  | invalidScalar (name : String)
  | notAnEnum (name : String)
  | notScalarField (field typeName : String)
  | notRelationField (field typeName : String)
  | unknownType (name : String)
  | badTypeName (fault : TypeNameFault)
  | badName (fault : NameFault)
  | unresolvedFields (typeName : String) (cause : Error)
  | repeatedTypeName (name : String)
  deriving DecidableEq, Repr

/-- The text of an error. -/
def Error.message : Error → String
  | .notAScalar name => name ++ " is not a scalar type."
  | .invalidScalar name => "Invalid scalar type given: " ++ name
  | .notAnEnum name => "Not an enum: " ++ name
  | .notScalarField field typeName =>
    "Expected " ++ field ++ " to be a scalar or enum field, got " ++ typeName ++ "."
  | .notRelationField field typeName =>
    "Expected " ++ field ++ " to be a relation field, got scalar " ++ typeName ++ "."
  | .unknownType name => Text.quote name
  | .badTypeName fault => fault.message
  | .badName fault => fault.message
  | .unresolvedFields typeName cause =>
    typeName ++ " fields cannot be resolved. " ++ cause.message
  | .repeatedTypeName name =>
    "Schema must contain uniquely named types but contains multiple types named '" ++ name ++ "'."

/-! ## Remembered answers -/

/-- The answers of a run, in the order in which they were found. An answer is a type, or that there is no
such type. -/
structure Cache where
  entries : List (Key × Option Handle) := []

namespace Cache

/-- The answer kept under a key. -/
def find? (c : Cache) (key : Key) : Option (Option Handle) := c.entries.lookup key

/-- Keeps an answer. -/
def insert (c : Cache) (key : Key) (answer : Option Handle) : Cache :=
  ⟨c.entries ++ [(key, answer)]⟩

end Cache

/-- A computation in a run: it may fail, and what it remembered stays remembered. -/
abbrev Run (α : Type) := ExceptT Error (StateM Cache) α

/-- Answers a request from memory, or works the answer out and remembers it. -/
def remember (r : Request) (work : Run (Option Handle)) : Run (Option Handle) := do
  match (← get).find? r.key with
  | some answer => pure answer
  | none =>
    let answer ← work
    modify (·.insert r.key answer)
    pure answer

/-! ## Asking for types -/

/-- How requests are answered while a type is built. -/
abbrev Ask (m : Type → Type) := Request → m (Option Handle)

/-- Asks for a type that is used whether it exists or not. -/
def Ask.type {m : Type → Type} [Monad m] (ask : Ask m) (r : Request) : m Handle := do
  return (← ask r).getD .absent

end OpenCrud.Generate
