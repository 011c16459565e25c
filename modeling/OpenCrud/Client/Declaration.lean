import OpenCrud.Client.Comment
import OpenCrud.Client.Language
import OpenCrud.Client.Parameters

/-!
# Declarations of types

Every type of a schema is declared in the bindings, grouped by category: enums, input objects, interfaces,
objects, scalars, unions. An object is declared twice, as a node and as a promise of a node.
-/

namespace OpenCrud.Client

/-! ## Categories -/

/-- The categories of types, in the order in which they are declared. -/
inductive Category where
  | enum | inputObject | interface | object | scalar | union
  deriving DecidableEq, Repr

namespace Category

/-- The name of a category. -/
def name : Category → String
  | .enum => "enum"
  | .inputObject => "input_object"
  | .interface => "interface"
  | .object => "object"
  | .scalar => "scalar"
  | .union => "union"

/-- The categories in order. -/
def all : List Category := [.enum, .inputObject, .interface, .object, .scalar, .union]

/-- The category of a type. -/
def of {ρ : Type} (t : NamedType ρ) : Category :=
  match t.body with
  | .scalar _ => .scalar
  | .enum _ => .enum
  | .object _ _ => .object
  | .interface _ _ => .interface
  | .union _ => .union
  | .inputObject _ _ => .inputObject

end Category

/-! ## Interfaces -/

/-- A member of an interface. -/
structure Member where
  name : String
  isOptional : Bool := false
  type : String

/-- An interface of the bindings. -/
structure InterfaceDecl where
  description : Option String
  name : String
  parents : List String := []
  members : List Member

/-- The name of a member with the mark of one that may be missing. -/
def Member.label (m : Member) : String := m.name ++ optionalMark m.isOptional

/-- A member as text. -/
def Member.render (m : Member) : String := "  " ++ m.label ++ ": " ++ m.type ++ ","

/-- An interface as text. -/
def InterfaceDecl.render (d : InterfaceDecl) : String :=
  let parents := if d.parents.isEmpty then "" else " extends " ++ ", ".intercalate d.parents
  describe d.description ++ "export interface " ++ d.name ++ parents ++ " \x7b\n"
    ++ "\n".intercalate (d.members.map Member.render) ++ "\n\x7d"

/-- Whether a node or a promise marks a field as one that may be missing. A node marks what can be null. -/
def isMarked (isNode : Bool) (t : TypeExpr String) : Bool := isNode && !t.isNonNull

/-- The name of a field in a node or a promise. -/
def fieldLabel (isNode : Bool) (name : String) (t : TypeExpr String) : String :=
  name ++ optionalMark (isMarked isNode t)

/-- The member of a node or a promise for a field. -/
def memberOf (s : Schema) (isNode : Bool) (entry : String × OutputField String) : Member where
  name := entry.1
  isOptional := isMarked isNode entry.2.type
  type := outputFieldType s { isNode, isFunction := true } false entry.1 entry.2

/-- The fields that a node or a promise shows. A node shows no objects. -/
def shownFields (s : Schema) (isNode : Bool) (fields : FieldMap (OutputField String)) :
    FieldMap (OutputField String) :=
  fields.filter fun entry => !(isNode && s.isObject entry.2.type.base)

/-- The name of the node shape of a type. -/
def nodeName (name : String) : String := name ++ "Node"

/-- The interface for an object or an interface of a schema, as a node or as a promise of one. Only objects
name the interfaces that they implement. -/
def interfaceOf (s : Schema) (isNode : Bool) (t : NamedType String) : InterfaceDecl :=
  let implemented := match t.body with
    | .object interfaces _ => interfaces
    | _ => []
  { description := t.description
    name := if isNode then nodeName t.name else t.name
    parents := (if isNode then [] else [promise (nodeName t.name)]) ++ implemented
    members := (shownFields s isNode t.body.outputFields).map (memberOf s isNode) }

/-- The interface for an input object. -/
def inputInterface (t : NamedType String) (fields : FieldMap (InputField String)) :
    InterfaceDecl where
  description := t.description
  name := t.name
  members := fields.map fun entry =>
    { name := entry.1
      isOptional := !entry.2.type.isNonNull
      type := inputFieldType entry.2.type }

/-! ## Other types -/

/-- The declaration of a type by another. -/
def typeAlias (name type : String) : String := "export type " ++ name ++ " = " ++ type

/-- The declaration of a scalar. An identifier goes in as more than it comes out as. -/
def declareScalar (language : Language) (t : NamedType String) : String :=
  let type := language.typeOfScalarNamed t.name
  if t.name = Scalar.id.name then
    comment t.description ++ typeAlias "ID_Input" type ++ "\n" ++ typeAlias "ID_Output" "string"
  else comment t.description ++ typeAlias t.name type

/-- The declaration of an enum. -/
def declareEnum (t : NamedType String) (values : List String) : String :=
  describe t.description ++ "export type " ++ t.name ++ " =\n"
    ++ " |\n".intercalate (values.map fun value => "  '" ++ value ++ "'")

/-- The declaration of a union. -/
def declareUnion (t : NamedType String) (members : List String) : String :=
  describe t.description ++ typeAlias t.name (" | ".intercalate members)

/-- The declarations of an object: its node, then its promise. -/
def declareObject (s : Schema) (t : NamedType String) : String :=
  (interfaceOf s true t).render ++ "\n\n" ++ (interfaceOf s false t).render

/-- The declaration of a type. -/
def declare (language : Language) (s : Schema) (t : NamedType String) : String :=
  match t.body with
  | .scalar _ => declareScalar language t
  | .enum values => declareEnum t values.keys
  | .object _ _ => declareObject s t
  | .interface _ _ => (interfaceOf s true t).render
  | .union members => declareUnion t members
  | .inputObject fields _ => (inputInterface t fields).render

/-! ## All types of a schema -/

/-- Whether a name is hidden from clients: it begins with two underscores. -/
def isHiddenName (name : String) : Bool := "__".toList.isPrefixOf name.toList

/-- The types that are declared, grouped by category. -/
def declaredTypes (s : Schema) : List (NamedType String) :=
  let roots := s.roots.map Prod.snd
  let visible := s.types.filter fun t => !isHiddenName t.name && !roots.contains t.name
  Category.all.flatMap fun category => visible.filter fun t => Category.of t = category

/-- The declarations of all types. -/
def declareAll (language : Language) (s : Schema) : String :=
  "\n\n".intercalate ((declaredTypes s).map (declare language s))

end OpenCrud.Client
