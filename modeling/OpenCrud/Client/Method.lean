import OpenCrud.Client.Parameters
import OpenCrud.Sdl.Document

/-!
# Methods

The fields of the root types become methods of the client. A client has them a second time as delegates,
which hand a call on together with the place that it came from.
-/

namespace OpenCrud.Client

open Sdl (Operation)

/-- How the fields of a root type become methods. -/
structure MethodStyle where
  operation : Operation
  isDelegate : Bool := false
  isMutation : Bool := false

/-- A method of the client. -/
structure Method where
  name : String
  isGeneric : Bool
  parameters : String
  result : String

/-- A method as text. -/
def Method.render (m : Method) : String :=
  "    " ++ m.name ++ ": " ++ (if m.isGeneric then "<T>" else "")
    ++ function m.parameters m.result

namespace MethodStyle

/-- How the field of a method is called. -/
def callStyle (style : MethodStyle) : CallStyle where
  withInfo := style.isDelegate
  isMutation := style.isMutation
  isTopLevel := true

/-- The type that a method results in. -/
def result (style : MethodStyle) (s : Schema) (name : String) (field : OutputField String) : String :=
  if style.operation = .subscription then "Promise<AsyncIterator<T>>"
  else if style.isDelegate then "T"
  else outputFieldType s {} style.isMutation name field

/-- The method for a field of a root type. -/
def method (style : MethodStyle) (s : Schema) (name : String) (field : OutputField String) : Method where
  name
  isGeneric := style.isDelegate
  parameters := parameterList s style.callStyle name field
  result := style.result s name field

/-- The methods for the fields of a root type. -/
def methods (style : MethodStyle) (s : Schema) (fields : FieldMap (OutputField String)) : String :=
  ";\n".intercalate (fields.map fun entry => (style.method s entry.1 entry.2).render)

end MethodStyle

/-! ## Root types -/

/-- The methods for a root type, if the schema has it. -/
def rootMethods (s : Schema) (root : Option String) (style : MethodStyle) : String :=
  match s.root? root with
  | none => ""
  | some t => style.methods s t.body.outputFields

/-- The queries of a client. -/
def queries (s : Schema) : String := rootMethods s s.query { operation := .query }

/-- The mutations of a client. -/
def mutations (s : Schema) : String :=
  rootMethods s s.mutation { operation := .mutation, isMutation := true }

/-- The queries of a client as delegates. -/
def delegateQueries (s : Schema) : String :=
  rootMethods s s.query { operation := .query, isDelegate := true }

/-- The mutations of a client as delegates. -/
def delegateMutations (s : Schema) : String :=
  rootMethods s s.mutation { operation := .mutation, isDelegate := true }

/-! ## Existence checks -/

/-- The items of a list type. -/
def listedType? : TypeExpr String → Option String
  | .list item => some item.base
  | .nonNull (.list item) => some item.base
  | _ => none

/-- The type that a list query returns with the type of its filter, if it has one. -/
def filteredType? (field : OutputField String) : Option (String × String) := do
  let typeName ← listedType? field.type
  let filter ← field.args.find? "where"
  return (typeName, filter.type.base)

/-- The types that can be checked for items, each with the type of the filter. -/
def filteredTypes (fields : FieldMap (OutputField String)) : List (String × String) :=
  fields.filterMap fun entry => filteredType? entry.2

end OpenCrud.Client
