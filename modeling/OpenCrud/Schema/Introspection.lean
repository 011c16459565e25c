import OpenCrud.Schema.Basic
import OpenCrud.Sdl.Document

/-!
# Types that describe schemas

Every schema has the same eight types by which it describes itself. They are never printed, but a type may
refer to them, and whoever asks a schema for them finds them.

Every one of them that is no enum refers to a text before it refers to a truth value, so a walk that comes
to one of them meets `String` first and `Boolean` next.
-/

namespace OpenCrud.Introspection

/-! ## Shapes of fields -/

/-- A field of a type, without arguments. -/
def field (name : String) (type : TypeExpr String) : String × OutputField String :=
  (name, { type })

/-- A field that can show what is deprecated on request. -/
def filteredField (name : String) (type : TypeExpr String) : String × OutputField String :=
  (name, { type, args := [("includeDeprecated", { type := .nonNull (.named Scalar.boolean.name) })] })

/-- A reference that is never null. -/
def always (name : String) : TypeExpr String := .nonNull (.named name)

/-- A list of items that are never null. -/
def listOf (name : String) : TypeExpr String := .list (always name)

/-- A text that may be missing. -/
def text : TypeExpr String := .named Scalar.string.name

/-- A truth value. -/
def flag : TypeExpr String := always Scalar.boolean.name

/-- The fields that say whether an item is deprecated, and why. -/
def deprecationFields : FieldMap (OutputField String) :=
  [field "isDeprecated" flag, field "deprecationReason" text]

/-! ## The types -/

/-- The fields of a schema. -/
def schemaFields : FieldMap (OutputField String) :=
  [field "description" text,
   field "types" (.nonNull (listOf "__Type")),
   field "queryType" (always "__Type"),
   field "mutationType" (.named "__Type"),
   field "subscriptionType" (.named "__Type"),
   filteredField "directives" (.nonNull (listOf "__Directive"))]

/-- The fields of a directive. -/
def directiveFields : FieldMap (OutputField String) :=
  [field "name" (always Scalar.string.name),
   field "description" text,
   field "isRepeatable" flag,
   field "locations" (.nonNull (listOf "__DirectiveLocation")),
   filteredField "args" (.nonNull (listOf "__InputValue"))] ++ deprecationFields

/-- The fields of a type. -/
def typeFields : FieldMap (OutputField String) :=
  [field "kind" (always "__TypeKind"),
   field "name" text,
   field "description" text,
   field "specifiedByURL" text,
   filteredField "fields" (listOf "__Field"),
   field "interfaces" (listOf "__Type"),
   field "possibleTypes" (listOf "__Type"),
   filteredField "enumValues" (listOf "__EnumValue"),
   filteredField "inputFields" (listOf "__InputValue"),
   field "ofType" (.named "__Type"),
   field "isOneOf" (.named Scalar.boolean.name)]

/-- The fields of a field. -/
def fieldFields : FieldMap (OutputField String) :=
  [field "name" (always Scalar.string.name),
   field "description" text,
   filteredField "args" (.nonNull (listOf "__InputValue")),
   field "type" (always "__Type")] ++ deprecationFields

/-- The fields of an argument or of a field of an input type. -/
def inputValueFields : FieldMap (OutputField String) :=
  [field "name" (always Scalar.string.name),
   field "description" text,
   field "type" (always "__Type"),
   field "defaultValue" text] ++ deprecationFields

/-- The fields of an enum value. -/
def enumValueFields : FieldMap (OutputField String) :=
  [field "name" (always Scalar.string.name),
   field "description" text] ++ deprecationFields

/-- An object type with a description. -/
def objectType (name description : String) (fields : FieldMap (OutputField String)) :
    NamedType String where
  name := name
  description := some description
  body := .object [] fields

/-- An enum with a description. -/
def enumType (name description : String) (values : List String) : NamedType String where
  name := name
  description := some description
  body := .enum (values.map (·, {}))

/-- The types by which a schema describes itself. -/
def types : List (NamedType String) :=
  [objectType "__Schema"
    ("A GraphQL Schema defines the capabilities of a GraphQL server. It exposes all available types " ++
      "and directives on the server, as well as the entry points for query, mutation, and " ++
      "subscription operations.")
    schemaFields,
   objectType "__Directive"
    ("A Directive provides a way to describe alternate runtime execution and type validation " ++
      "behavior in a GraphQL document.\n\nIn some cases, you need to provide options to alter " ++
      "GraphQL's execution behavior in ways field arguments will not suffice, such as conditionally " ++
      "including or skipping a field. Directives provide this by describing additional information " ++
      "to the executor.")
    directiveFields,
   enumType "__DirectiveLocation"
    ("A Directive can be adjacent to many parts of the GraphQL language, a __DirectiveLocation " ++
      "describes one such possible adjacencies.")
    Sdl.directiveLocations,
   objectType "__Type"
    ("The fundamental unit of any GraphQL Schema is the type. There are many kinds of types in " ++
      "GraphQL as represented by the `__TypeKind` enum.\n\nDepending on the kind of a type, certain " ++
      "fields describe information about that type. Scalar types provide no information beyond a " ++
      "name, description and optional `specifiedByURL`, while Enum types provide their values. " ++
      "Object and Interface types provide the fields they describe. Abstract types, Union and " ++
      "Interface, provide the Object types possible at runtime. List and NonNull types compose " ++
      "other types.")
    typeFields,
   objectType "__Field"
    ("Object and Interface types are described by a list of Fields, each of which has a name, " ++
      "potentially a list of arguments, and a return type.")
    fieldFields,
   objectType "__InputValue"
    ("Arguments provided to Fields or Directives and the input fields of an InputObject are " ++
      "represented as Input Values which describe their type and optionally a default value.")
    inputValueFields,
   objectType "__EnumValue"
    ("One possible value for a given Enum. Enum values are unique values, not a placeholder for a " ++
      "string or numeric value. However an Enum value is returned in a JSON response as a string.")
    enumValueFields,
   enumType "__TypeKind"
    "An enum describing what kind of type a given `__Type` is."
    ["SCALAR", "OBJECT", "INTERFACE", "UNION", "ENUM", "INPUT_OBJECT", "LIST", "NON_NULL"]]

/-- The type of a name. -/
def find? (name : String) : Option (NamedType String) := types.find? (·.name = name)

/-- The names of these types are the reserved ones. -/
theorem map_name_types : types.map (·.name) = introspectionNames := rfl

end OpenCrud.Introspection
