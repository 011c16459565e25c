import OpenCrud.Schema.TypeExpr
import OpenCrud.Sdl.Name
import OpenCrud.Sdl.Place
import OpenCrud.Value

/-!
# Documents

A document is a list of definitions. The definitions that describe types keep all that a datamodel or a
schema needs; of the others, such as operations and extensions, only the kind is kept.
-/

namespace OpenCrud.Sdl

/-! ## Literals -/

/-- A value as it is written. Numbers keep their text. -/
inductive Literal where
  | null
  | bool (b : Bool)
  | int (text : String)
  | float (text : String)
  | string (value : String)
  | blockString (value : String)
  | enum (name : String)
  | variable (name : String)
  | list (items : List Literal)
  | object (entries : List (String × Literal))

namespace Literal

/-- The number that a run of decimal digits stands for. -/
def natOfDigits (digits : List Char) : Nat :=
  digits.foldl (fun n c => 10 * n + (c.toNat - 0x30)) 0

/-- Splits off a leading sign. -/
def splitSign : List Char → Bool × List Char
  | '-' :: rest => (true, rest)
  | '+' :: rest => (false, rest)
  | cs => (false, cs)

/-- The most digits that an integer can have to be read as one. -/
def maxIntDigits : Nat := 4300

/-- The value of an integer literal. A literal of too many digits is no number. -/
def intValue (text : String) : Value :=
  let (negative, digits) := splitSign text.toList
  if maxIntDigits < digits.length then .float Double.nan
  else .int (if negative then -(natOfDigits digits : Int) else natOfDigits digits)

/-- The value of a literal with a point or an exponent: the nearest double. -/
def floatValue (text : String) : Value :=
  let (negative, rest) := splitSign text.toList
  let (whole, rest) := rest.span Char.isDigit
  let (fraction, rest) := match rest with
    | '.' :: rest => rest.span Char.isDigit
    | _ => ([], rest)
  let exponent : Int := match rest with
    | _ :: rest =>
      let (negative, digits) := splitSign rest
      if negative then -(natOfDigits digits : Int) else natOfDigits digits
    | [] => 0
  .float (.nearest negative (natOfDigits (whole ++ fraction)) (exponent - fraction.length))

mutual

/-- The value of a literal. A repeated key of an object keeps its first place and takes its last value. -/
def toValue : Literal → Value
  | .null | .variable _ => .null
  | .bool b => .bool b
  | .int text => intValue text
  | .float text => floatValue text
  | .string value | .blockString value => .text value
  | .enum name => .text name
  | .list items => .list (toValues items)
  | .object entries => .object (FieldMap.ofEntries (toEntries entries))

/-- The values of the items of a list. -/
def toValues : List Literal → List Value
  | [] => []
  | x :: xs => toValue x :: toValues xs

/-- The entries of an object with their values. -/
def toEntries : List (String × Literal) → List (String × Value)
  | [] => []
  | (key, x) :: xs => (key, toValue x) :: toEntries xs

end

end Literal

/-! ## Parts of definitions -/

/-- An argument of a directive, with the place of its value. -/
structure Argument where
  name : Name
  value : Literal
  place : Place

/-- A directive with its arguments and its place. -/
structure Directive where
  name : Name
  arguments : List Argument
  place : Place

/-- The names of the places where a directive can be used. -/
def directiveLocations : List String :=
  ["QUERY", "MUTATION", "SUBSCRIPTION", "FIELD", "FRAGMENT_DEFINITION", "FRAGMENT_SPREAD",
   "INLINE_FRAGMENT", "VARIABLE_DEFINITION", "FRAGMENT_VARIABLE_DEFINITION", "SCHEMA", "SCALAR",
   "OBJECT", "FIELD_DEFINITION", "ARGUMENT_DEFINITION", "INTERFACE", "UNION", "ENUM", "ENUM_VALUE",
   "INPUT_OBJECT", "INPUT_FIELD_DEFINITION", "DIRECTIVE_DEFINITION"]

/-- An argument of a field, or a field of an input type. -/
structure InputDef where
  description : Option String
  name : Name
  type : TypeExpr Name
  directives : List Directive

/-- A field of an object or an interface. -/
structure FieldDef where
  description : Option String
  name : Name
  arguments : List InputDef
  type : TypeExpr Name
  directives : List Directive

/-- A value of an enum. -/
structure EnumValueDef where
  description : Option String
  name : Name
  directives : List Directive

/-! ## Definitions -/

/-- An object type or an interface. -/
structure ObjectDef where
  description : Option String
  name : Name
  interfaces : List Name
  directives : List Directive
  fields : List FieldDef

/-- An enum. -/
structure EnumDef where
  description : Option String
  name : Name
  directives : List Directive
  values : List EnumValueDef

/-- An input object type. -/
structure InputObjectDef where
  description : Option String
  name : Name
  directives : List Directive
  fields : List InputDef

/-- A union. -/
structure UnionDef where
  description : Option String
  name : Name
  members : List Name

/-- A scalar. -/
structure ScalarDef where
  description : Option String
  name : Name
  directives : List Directive

/-- A root operation of a schema. -/
inductive Operation where
  | query | mutation | subscription
  deriving DecidableEq, Repr

/-- The keyword of an operation. -/
def Operation.keyword : Operation → String
  | .query => "query"
  | .mutation => "mutation"
  | .subscription => "subscription"

/-- The name of a type that is the root of an operation unless something else is said. -/
def Operation.defaultTypeName : Operation → String
  | .query => "Query"
  | .mutation => "Mutation"
  | .subscription => "Subscription"

/-- The operation of a keyword. -/
def Operation.ofKeyword? (word : String) : Option Operation :=
  [Operation.query, .mutation, .subscription].find? (·.keyword = word)

/-- The root types of a schema. -/
structure SchemaDef where
  description : Option String
  roots : List (Operation × Name)

/-- The definitions of which only the kind matters. -/
inductive OtherDefinition where
  | operation | fragment | directive
  | schemaExtension | scalarExtension | objectExtension | interfaceExtension | unionExtension
  | enumExtension | inputObjectExtension | directiveExtension
  deriving DecidableEq, Repr

/-- A definition. -/
inductive Definition where
  | object (d : ObjectDef)
  | interface (d : ObjectDef)
  | enum (d : EnumDef)
  | union (d : UnionDef)
  | inputObject (d : InputObjectDef)
  | scalar (d : ScalarDef)
  | schema (d : SchemaDef)
  | other (kind : OtherDefinition)

/-- The name of a definition's kind. -/
def Definition.kind : Definition → String
  | .object _ => "object_type_definition"
  | .interface _ => "interface_type_definition"
  | .enum _ => "enum_type_definition"
  | .union _ => "union_type_definition"
  | .inputObject _ => "input_object_type_definition"
  | .scalar _ => "scalar_type_definition"
  | .schema _ => "schema_definition"
  | .other .operation => "operation_definition"
  | .other .fragment => "fragment_definition"
  | .other .directive => "directive_definition"
  | .other .schemaExtension => "schema_extension"
  | .other .scalarExtension => "scalar_type_extension"
  | .other .objectExtension => "object_type_extension"
  | .other .interfaceExtension => "interface_type_extension"
  | .other .unionExtension => "union_type_extension"
  | .other .enumExtension => "enum_type_extension"
  | .other .inputObjectExtension => "input_object_type_extension"
  | .other .directiveExtension => "directive_extension"

/-- The name of the type that a definition defines. -/
def Definition.typeName? : Definition → Option Name
  | .object d | .interface d => some d.name
  | .enum d => some d.name
  | .union d => some d.name
  | .inputObject d => some d.name
  | .scalar d => some d.name
  | .schema _ | .other _ => none

/-- A document. -/
abbrev Document := List Definition

/-- The first directive of a name. -/
def findDirective? (directives : List Directive) (name : String) : Option Directive :=
  directives.find? (·.name.text = name)

/-- Whether there is a directive of a name. -/
def hasDirective (directives : List Directive) (name : String) : Bool :=
  (findDirective? directives name).isSome

/-- The last argument of a name. -/
def Directive.lastArgument? (d : Directive) (name : String) : Option Argument :=
  d.arguments.reverse.find? (·.name.text = name)

/-- The value of the first argument of a name; an absent argument and a null value are alike. -/
def Directive.argument? (d : Directive) (name : String) : Option Value :=
  (d.arguments.find? (·.name.text = name)).bind fun argument => argument.value.toValue.present?

end OpenCrud.Sdl
