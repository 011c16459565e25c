import OpenCrud.Schema.Lookup

/-!
# Types in bindings

The text of a schema type in the bindings. Objects have two shapes there: the shape of a promise, under the
object's own name, and the shape of a node, which holds only what needs no further request.

Input types are written with their modifiers to any depth. Types of fields and arguments look only at the
two outermost modifiers.
-/

namespace OpenCrud.Client

/-! ## Names -/

/-- The name of a type where its values are read: an identifier comes out as another type than the one it
goes in as. -/
def outputName (name : String) : String := if name = Scalar.id.name then "ID_Output" else name

/-- The name of a type where its values are given. -/
def inputName (name : String) : String := if name = Scalar.id.name then "ID_Input" else name

/-- The type of a field of an input object. One item may stand for a list of one. -/
def inputFieldType : TypeExpr String → String
  | .named name => inputName name
  | .nonNull inner => inputFieldType inner
  | .list item => inputFieldType item ++ "[] | " ++ inputFieldType item

/-! ## Looking at two modifiers -/

/-- Whether one of the two outermost modifiers has a property. -/
def outerModifier (p : TypeExpr String → Bool) (t : TypeExpr String) : Bool :=
  p t || t.inner?.any p

/-- Whether a type is written as a list. -/
def isListed (t : TypeExpr String) : Bool := outerModifier TypeExpr.isList t

/-- Whether a type is written so that null is a value of it. -/
def isNullable (t : TypeExpr String) : Bool := !outerModifier TypeExpr.isNonNull t

/-! ## Fields and arguments -/

/-- How the type of a field or an argument is written. -/
structure TypeStyle where
  /-- As part of the shape of a node. -/
  isNode : Bool := false
  /-- With every part of it optional. -/
  isPartial : Bool := false
  /-- As a function that is called to get the value. -/
  isFunction : Bool := false

/-- A promise of a type. -/
def promise (type : String) : String := "Promise<" ++ type ++ ">"

/-- An array of a type. -/
def array (type : String) : String := "Array<" ++ type ++ ">"

/-- A function with a parameter list. -/
def function (parameters type : String) : String := "(" ++ parameters ++ ") => " ++ type

/-- The name of a type, of its node shape inside lists and nodes. -/
def shapeName (s : Schema) (style : TypeStyle) (t : TypeExpr String) : String :=
  let name := outputName t.base
  if (style.isNode || isListed t) && !s.isLeaf t.base then name ++ "Node" else name

/-- A type with null as a value, where lists and nodes say so. -/
def withNull (style : TypeStyle) (t : TypeExpr String) (type : String) : String :=
  if (isListed t || style.isNode) && isNullable t then type ++ " | null" else type

/-- A type with every part of it optional. -/
def withPartial (style : TypeStyle) (type : String) : String :=
  if style.isPartial then "Partial<" ++ type ++ ">" else type

/-- The type of an argument. -/
def argumentType (s : Schema) (style : TypeStyle) (t : TypeExpr String) : String :=
  let type := withNull style t (shapeName s style t)
  if isListed t then
    if s.isLeaf t.base then array type
    else if style.isFunction then function "" (promise (array type))
    else promise (array type)
  else
    let type := withPartial style type
    if style.isNode && s.isLeaf t.base then promise type else type

/-- The type of a field, given the parameter list of the function that gets it. -/
def fieldType (s : Schema) (style : TypeStyle) (parameters : String) (t : TypeExpr String) :
    String :=
  let name := shapeName s style t
  if s.isLeaf t.base then
    let type := if isListed t then name ++ "[]" else name
    if style.isNode then type else function parameters (promise type)
  else
    let type := withNull style t name
    if isListed t then
      let type := promise (array type)
      if style.isFunction then function parameters type else type
    else
      let type := withPartial style type
      if style.isNode then promise type
      else if style.isFunction then function parameters type
      else type

end OpenCrud.Client
