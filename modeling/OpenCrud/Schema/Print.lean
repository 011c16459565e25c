import OpenCrud.Schema.Description
import OpenCrud.Schema.Lookup

/-!
# Schemas as text

The schema definition language of a finished schema: blocks joined by one blank line, without a line feed
at the end. Types that every schema has are left out.
-/

namespace OpenCrud

/-! ## Parts -/

/-- The reason that stands for no reason. -/
def noDeprecationReason : String := "No longer supported"

/-- A directive with one argument, a text. -/
def printTextDirective (name argument text : String) : String :=
  " @" ++ name ++ "(" ++ argument ++ ": " ++ String.ofList (Description.quoted text.toList) ++ ")"

/-- The directive of a deprecated item. -/
def printDeprecation : Option String → String
  | none => ""
  | some reason =>
    if reason = noDeprecationReason then " @deprecated"
    else printTextDirective "deprecated" "reason" reason

/-- The directive of a scalar that says where it is specified. -/
def printSpecification (specification : Option String) : String :=
  (specification.map (printTextDirective "specifiedBy" "url")).getD ""

/-- An argument or a field of an input type. -/
def InputField.print (name : String) (field : InputField String) : String :=
  name ++ ": " ++ field.type.render ++ printDeprecation field.deprecation

/-- Items with their place: whether an item is the first. -/
def markFirst {α : Type} : List α → List (Bool × α)
  | [] => []
  | x :: xs => (true, x) :: xs.map (false, ·)

/-- The arguments of a field, on one line unless one of them has a description. -/
def printArgs (args : FieldMap (InputField String)) (indent : String) : String :=
  if args.isEmpty then ""
  else if args.all fun entry => entry.2.description.isNone then
    "(" ++ ", ".intercalate (args.map fun entry => entry.2.print entry.1) ++ ")"
  else
    let inner := "  " ++ indent
    let lines := (markFirst args).map fun (isFirst, name, field) =>
      Description.render field.description inner isFirst ++ inner ++ field.print name
    "(\n" ++ "\n".intercalate lines ++ "\n" ++ indent ++ ")"

/-- Items in braces on lines of their own; nothing for no items. -/
def printBlock (items : List String) : String :=
  if items.isEmpty then "" else " \x7b\n" ++ "\n".intercalate items ++ "\n\x7d"

/-- The fields of an object or an interface. -/
def printFields (fields : FieldMap (OutputField String)) : String :=
  printBlock <| (markFirst fields).map fun (isFirst, name, field) =>
    Description.render field.description "  " isFirst ++ "  " ++ name ++ printArgs field.args "  "
      ++ ": " ++ field.type.render ++ printDeprecation field.deprecation

/-- The interfaces that a type implements. -/
def printInterfaces (interfaces : List String) : String :=
  if interfaces.isEmpty then "" else " implements " ++ " & ".intercalate interfaces

/-! ## Types -/

/-- A named type without its description. -/
def printBody (name : String) : TypeBody String → String
  | .scalar specification => "scalar " ++ name ++ printSpecification specification
  | .enum values =>
    "enum " ++ name ++ printBlock ((markFirst values).map fun (isFirst, value, info) =>
      Description.render info.description "  " isFirst ++ "  " ++ value
        ++ printDeprecation info.deprecation)
  | .object interfaces fields =>
    "type " ++ name ++ printInterfaces interfaces ++ printFields fields
  | .interface interfaces fields =>
    "interface " ++ name ++ printInterfaces interfaces ++ printFields fields
  | .union members =>
    "union " ++ name ++ (if members.isEmpty then "" else " = " ++ " | ".intercalate members)
  | .inputObject fields isOneOf =>
    "input " ++ name ++ (if isOneOf then " @oneOf" else "") ++ printBlock ((markFirst fields).map fun (isFirst, field, info) =>
      Description.render info.description "  " isFirst ++ "  " ++ info.print field)

/-- A named type. -/
def NamedType.print (t : NamedType String) : String :=
  Description.render t.description "" true ++ printBody t.name t.body

/-! ## Schemas -/

namespace Schema

/-- Whether the root types are exactly the types called `Query`, `Mutation` and `Subscription`. -/
def hasDefaultRoots (s : Schema) : Bool :=
  let isDefault (root : Option String) (name : String) :=
    root = (s.find? name).map (·.name)
  isDefault s.query "Query" && isDefault s.mutation "Mutation"
    && isDefault s.subscription "Subscription"

/-- The definition of the root types, when it says something that the types do not. -/
def printRoots? (s : Schema) : Option String :=
  if s.roots.isEmpty then none
  else if s.description.isNone && s.hasDefaultRoots then none
  else
    let lines := s.roots.map fun (operation, root) => "  " ++ operation ++ ": " ++ root ++ "\n"
    some (Description.render s.description "" true ++ "schema \x7b\n" ++ String.join lines ++ "\x7d")

/-- Whether a type has to be declared: it is no scalar that every schema has. -/
def isDeclared (t : NamedType String) : Bool := !isReservedName t.name

/-- A schema as text. -/
def print (s : Schema) : String :=
  "\n\n".intercalate
    (s.printRoots?.toList ++ (s.types.filter isDeclared).map NamedType.print)

end Schema

end OpenCrud
