import OpenCrud.FieldMap
import OpenCrud.Scalar
import OpenCrud.Schema.TypeExpr

/-!
# Schemas

A named type has a name, perhaps a description, and a body that says what kind of type it is. Types refer
to each other through references `ρ`: in a finished schema a reference is a name, and while a schema is
generated it is a handle on a type that may not be built yet.
-/

namespace OpenCrud

/-! ## Parts of types -/

/-- An argument of a field, or a field of an input type. -/
structure InputField (ρ : Type) where
  type : TypeExpr ρ
  description : Option String := none
  deprecation : Option String := none
  deriving DecidableEq, Repr

/-- A field of an object or an interface. -/
structure OutputField (ρ : Type) where
  type : TypeExpr ρ
  args : FieldMap (InputField ρ) := []
  description : Option String := none
  deprecation : Option String := none
  deriving DecidableEq, Repr

/-- A value of an enum. -/
structure EnumValue where
  description : Option String := none
  deprecation : Option String := none
  deriving DecidableEq, Repr

/-! ## Types -/

/-- The kinds of named types with what makes them up. A scalar can say where it is specified, and an input
object can demand that exactly one of its fields is given. -/
inductive TypeBody (ρ : Type) where
  | scalar (specification : Option String := none)
  | enum (values : FieldMap EnumValue)
  | object (interfaces : List ρ) (fields : FieldMap (OutputField ρ))
  | interface (interfaces : List ρ) (fields : FieldMap (OutputField ρ))
  | union (members : List ρ)
  | inputObject (fields : FieldMap (InputField ρ)) (isOneOf : Bool := false)
  deriving DecidableEq, Repr

/-- A named type. -/
structure NamedType (ρ : Type) where
  name : String
  description : Option String := none
  body : TypeBody ρ
  deriving DecidableEq, Repr

/-- A finished schema: its types in order, without those that describe schemas themselves, and the names of
its root types. -/
structure Schema where
  types : List (NamedType String)
  query : Option String := none
  mutation : Option String := none
  subscription : Option String := none
  description : Option String := none
  deriving DecidableEq, Repr

namespace InputField

/-- The same field with other references. -/
def map {ρ σ : Type} (f : ρ → σ) (field : InputField ρ) : InputField σ :=
  { field with type := field.type.map f }

end InputField

namespace OutputField

/-- The same field with other references. -/
def map {ρ σ : Type} (f : ρ → σ) (field : OutputField ρ) : OutputField σ :=
  { field with
    type := field.type.map f
    args := field.args.map fun entry => (entry.1, entry.2.map f) }

/-- The references of a field: its type, then its arguments. -/
def refs {ρ : Type} (field : OutputField ρ) : List ρ :=
  field.type.base :: field.args.map fun entry => entry.2.type.base

end OutputField

namespace TypeBody

variable {ρ σ : Type}

/-- The same body with other references. -/
def map (f : ρ → σ) : TypeBody ρ → TypeBody σ
  | .scalar specification => .scalar specification
  | .enum values => .enum values
  | .object interfaces fields =>
    .object (interfaces.map f) (fields.map fun entry => (entry.1, entry.2.map f))
  | .interface interfaces fields =>
    .interface (interfaces.map f) (fields.map fun entry => (entry.1, entry.2.map f))
  | .union members => .union (members.map f)
  | .inputObject fields isOneOf =>
    .inputObject (fields.map fun entry => (entry.1, entry.2.map f)) isOneOf

/-- The references of a body, in the order in which they are followed. -/
def refs : TypeBody ρ → List ρ
  | .scalar _ | .enum _ => []
  | .object interfaces fields | .interface interfaces fields =>
    interfaces ++ fields.flatMap fun entry => entry.2.refs
  | .union members => members
  | .inputObject fields _ => fields.map fun entry => entry.2.type.base

/-- The fields of an object or an interface. -/
def outputFields : TypeBody ρ → FieldMap (OutputField ρ)
  | .object _ fields | .interface _ fields => fields
  | _ => []

/-- Whether a body is an object's. -/
def isObject : TypeBody ρ → Bool
  | .object _ _ => true
  | _ => false

/-- Whether a body is a scalar's or an enum's: values of such types have no parts. -/
def isLeaf : TypeBody ρ → Bool
  | .scalar _ | .enum _ => true
  | _ => false

end TypeBody

namespace NamedType

/-- The same type with other references. -/
def map {ρ σ : Type} (f : ρ → σ) (t : NamedType ρ) : NamedType σ :=
  { name := t.name, description := t.description, body := t.body.map f }

/-- The named type of a scalar of the closed set. -/
def ofScalar {ρ : Type} (s : Scalar) : NamedType ρ :=
  { name := s.name, description := s.description?, body := .scalar }

/-- What keeps a type from being printed: the first enum value whose name is none. A type can hold such a
value, because the names of enum values are looked at only when the values are asked for. -/
def valueFault? {ρ : Type} (t : NamedType ρ) : Option NameFault :=
  match t.body with
  | .enum values => values.keys.findSome? valueNameFault?
  | _ => none

/-- A new scalar, if its name is free and a name. -/
def newScalar (name : String) : Except TypeNameFault (NamedType String) :=
  match typeNameFault? name with
  | some fault => .error fault
  | none => .ok { name, body := .scalar }

end NamedType

end OpenCrud
