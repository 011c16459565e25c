import OpenCrud.Datamodel.Basic
import OpenCrud.Sdl.Fault

/-!
# Problems of a datamodel

Everything that makes a datamodel unacceptable, one constructor a cause, with the place where it arises.
-/

namespace OpenCrud.Datamodel

/-- What is wrong with a datamodel. -/
inductive Problem where
  | malformed (fault : Sdl.Fault)
  | unsupportedDefinition (kind : String)
  | repeatedType
  | scalarName
  | reservedName
  | noValues
  | noFields
  | embeddedNotSupported (database : Database)
  | repeatedField
  | severalIds
  | nestedList
  | uniqueList
  | listDefault
  | relationOnScalar
  | generatedName (owner : String)
  | rootFieldClash (field owner other : String)
  | unknownType (name : String)
  | defaultNotAValue (value : Value) (enum : String)
  | relationDefault
  | uniqueRelation

/-- The text of a problem. -/
def Problem.detail : Problem → String
  | .malformed fault => "Invalid datamodel syntax: Syntax Error: " ++ fault.message
  | .unsupportedDefinition kind => "Unsupported definition in datamodel: " ++ kind
  | .repeatedType => "Type is declared more than once."
  | .scalarName => "Type name collides with a built-in scalar."
  | .reservedName => "Type name is reserved."
  | .noValues => "Enums must declare at least one value."
  | .noFields => "Types must declare at least one field."
  | .embeddedNotSupported database =>
    "@embedded types are not supported for " ++ database.name ++ " databases."
  | .repeatedField => "Field is declared more than once."
  | .severalIds => "Only one id field is allowed per type."
  | .nestedList => "Nested lists are not supported."
  | .uniqueList => "List fields cannot be @unique."
  | .listDefault => "List fields cannot have a default value."
  | .relationOnScalar => "@relation is only valid on relation fields."
  | .generatedName owner => "Type name collides with a type generated for " ++ owner ++ "."
  | .rootFieldClash field owner other =>
    "Root field " ++ field ++ " would be generated for both " ++ owner ++ " and " ++ other ++ "."
  | .unknownType name => "Unknown type " ++ name ++ "."
  | .defaultNotAValue value enum =>
    "Default value " ++ value.render ++ " is not a value of " ++ enum ++ "."
  | .relationDefault => "Relation fields cannot have a default value."
  | .uniqueRelation => "Relation fields cannot be unique."

/-- Where a problem arises. -/
inductive Place where
  | datamodel
  | type (name : String)
  | field (type field : String)
  deriving DecidableEq, Repr

/-- The type of a place. -/
def Place.typeName? : Place → Option String
  | .datamodel => none
  | .type name => some name
  | .field owner _ => some owner

/-- The field of a place. -/
def Place.fieldName? : Place → Option String
  | .field _ name => some name
  | _ => none

/-- A problem with its place. -/
structure Error where
  problem : Problem
  place : Place := .datamodel

/-- The text of an error: the problem, behind its place. -/
def Error.message (e : Error) : String :=
  match e.place with
  | .datamodel => e.problem.detail
  | .type name => name ++ ": " ++ e.problem.detail
  | .field owner name => owner ++ "." ++ name ++ ": " ++ e.problem.detail

end OpenCrud.Datamodel
