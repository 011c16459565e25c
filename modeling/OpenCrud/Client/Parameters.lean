import OpenCrud.Client.TypeText

/-!
# Parameter lists

The arguments of a field become the parameters of a function. Mostly they are collected in one record; a
creation takes its first argument as data, and a deletion or a query for one item takes it as the selection.
-/

namespace OpenCrud.Client

/-- How a field is called. -/
structure CallStyle where
  /-- With what is needed to delegate the call. -/
  withInfo : Bool := false
  isMutation : Bool := false
  isTopLevel : Bool := false

/-- An entry of a record of arguments. -/
structure ArgumentEntry where
  name : String
  isOptional : Bool
  type : String

/-- The parameters of a function. -/
inductive Parameters where
  /-- One argument under a label. -/
  | single (label : String) (isOptional : Bool) (type : String)
  /-- All arguments in a record. -/
  | record (isOptional : Bool) (entries : List ArgumentEntry)

/-- The mark of something that may be left out. -/
def optionalMark (isOptional : Bool) : String := if isOptional then "?" else ""

namespace ArgumentEntry

/-- The entry of an argument. -/
def ofArgument (s : Schema) (argument : String × InputField String) : ArgumentEntry where
  name := argument.1
  isOptional := !argument.2.type.isNonNull
  type := argumentType s {} argument.2.type

/-- An entry as text. -/
def render (entry : ArgumentEntry) : String :=
  entry.name ++ optionalMark entry.isOptional ++ ": " ++ entry.type

end ArgumentEntry

namespace Parameters

/-- Whether a type is an object, under at most one modifier. -/
def refersToObject (s : Schema) (t : TypeExpr String) : Bool :=
  let isObject : TypeExpr String → Bool
    | .named name => s.isObject name
    | _ => false
  outerModifier isObject t

/-- Whether a field takes its first argument as data. -/
def takesData (style : CallStyle) (name : String) : Bool :=
  style.isMutation && "create".toList.isPrefixOf name.toList

/-- Whether a field takes its first argument as a selection. -/
def takesSelection (s : Schema) (style : CallStyle) (name : String) (field : OutputField String) :
    Bool :=
  if style.isMutation then "delete".toList.isPrefixOf name.toList
  else style.isTopLevel && field.args.length = 1 && refersToObject s field.type

/-- The parameters of a field. -/
def ofField (s : Schema) (style : CallStyle) (name : String) (field : OutputField String) :
    Parameters :=
  let allOptional := field.args.all fun argument => !argument.2.type.isNonNull
  let entries := field.args.map (ArgumentEntry.ofArgument s)
  match entries with
  | [] => .record allOptional []
  | first :: _ =>
    if takesData style name then .single "data" allOptional first.type
    else if takesSelection s style name field then .single "where" allOptional first.type
    else .record allOptional entries

/-- Parameters as text. -/
def render : Parameters → String
  | .single label isOptional type => label ++ optionalMark isOptional ++ ": " ++ type
  | .record isOptional entries =>
    let padding := if entries.isEmpty then "" else " "
    "args" ++ optionalMark isOptional ++ ": \x7b" ++ padding
      ++ ", ".intercalate (entries.map ArgumentEntry.render) ++ padding ++ "\x7d"

end Parameters

/-- The parameters that a delegated call has besides. -/
def infoParameters : String := ", info?: GraphQLResolveInfo, options?: Options"

/-- The parameter list of a field. -/
def parameterList (s : Schema) (style : CallStyle) (name : String) (field : OutputField String) :
    String :=
  (Parameters.ofField s style name field).render ++ (if style.withInfo then infoParameters else "")

/-- The parameter list of the function that gets a field of an item; nothing without arguments. -/
def getterParameters (s : Schema) (isMutation : Bool) (name : String) (field : OutputField String) :
    String :=
  if field.args.isEmpty then "" else parameterList s { isMutation } name field

/-- The type of a field of an object, an interface or a root type. -/
def outputFieldType (s : Schema) (style : TypeStyle) (isMutation : Bool) (name : String)
    (field : OutputField String) : String :=
  fieldType s style (getterParameters s isMutation name field) field.type

end OpenCrud.Client
