import OpenCrud.Sdl.Name

/-!
# Scalars

The closed set of scalars that a datamodel can use. Five are part of every schema; the other four are
custom scalars, which a schema declares when it uses them.
-/

namespace OpenCrud

/-- A scalar of the closed set. -/
inductive Scalar where
  | string | int | float | boolean | id | long | dateTime | uuid | json
  deriving DecidableEq, Repr

namespace Scalar

/-- Every scalar, in the order in which they are listed. -/
def all : List Scalar :=
  [.string, .int, .float, .boolean, .id, .long, .dateTime, .uuid, .json]

/-- The name of a scalar. -/
def name : Scalar → String
  | .string => "String"
  | .int => "Int"
  | .float => "Float"
  | .boolean => "Boolean"
  | .id => "ID"
  | .long => "Long"
  | .dateTime => "DateTime"
  | .uuid => "UUID"
  | .json => "Json"

/-- Whether a scalar has to be declared by the schemas that use it. -/
def isCustom : Scalar → Bool
  | .long | .dateTime | .uuid | .json => true
  | .string | .int | .float | .boolean | .id => false

/-- The scalar of a name. -/
def ofName? (name : String) : Option Scalar := all.find? (·.name = name)

/-- Whether a name is a scalar's. -/
def isScalar (name : String) : Bool := (ofName? name).isSome

/-- The description of a scalar that is part of every schema. -/
def description? : Scalar → Option String
  | .int => some ("The `Int` scalar type represents non-fractional signed whole numeric values. " ++
      "Int can represent values between -(2^31) and 2^31 - 1.")
  | .float => some ("The `Float` scalar type represents signed double-precision fractional values " ++
      "as specified by [IEEE 754](https://en.wikipedia.org/wiki/IEEE_floating_point).")
  | .string => some ("The `String` scalar type represents textual data, represented as UTF-8 " ++
      "character sequences. The String type is most often used by GraphQL to represent free-form " ++
      "human-readable text.")
  | .boolean => some "The `Boolean` scalar type represents `true` or `false`."
  | .id => some ("The `ID` scalar type represents a unique identifier, often used to refetch an " ++
      "object or as key for a cache. The ID type appears in a JSON response as a String; however, " ++
      "it is not intended to be human-readable. When expected as an input type, any string (such " ++
      "as `\"4\"`) or integer (such as `4`) input value will be accepted as an ID.")
  | .long | .dateTime | .uuid | .json => none

/-- Every scalar is listed. -/
theorem mem_all (s : Scalar) : s ∈ all := by cases s <;> decide

/-- Reading a scalar's name gives the scalar. -/
@[simp] theorem ofName?_name (s : Scalar) : ofName? s.name = some s := by cases s <;> decide

end Scalar

/-! ## Names that no type may take -/

/-- The names of the types by which a schema describes itself. -/
def introspectionNames : List String :=
  ["__Schema", "__Directive", "__DirectiveLocation", "__Type", "__Field", "__InputValue",
   "__EnumValue", "__TypeKind"]

/-- Whether a name belongs to a type that every schema has. -/
def isReservedName (name : String) : Bool :=
  (Scalar.ofName? name).any (fun s => !s.isCustom) || introspectionNames.contains name

/-- Why a type cannot be made under a name. -/
inductive TypeNameFault where
  | reserved (name : String)
  | notAName (fault : NameFault)
  deriving DecidableEq, Repr

/-- The text of a fault. -/
def TypeNameFault.message : TypeNameFault → String
  | .reserved name => "Redefinition of reserved type '" ++ name ++ "'"
  | .notAName fault => fault.message

/-- What keeps a text from being the name of a new type; reserved names are looked at first. -/
def typeNameFault? (name : String) : Option TypeNameFault :=
  if isReservedName name then some (.reserved name)
  else (nameFault? name).map .notAName

end OpenCrud
