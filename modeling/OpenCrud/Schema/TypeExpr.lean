/-!
# Type expressions

A reference to a type, wrapped in any number of list and non-null modifiers. What a reference is depends
on the place: a name in a document, a generated type while a schema is built.
-/

namespace OpenCrud

/-- A type reference with its modifiers. -/
inductive TypeExpr (ρ : Type) where
  | named (ref : ρ)
  | list (item : TypeExpr ρ)
  | nonNull (inner : TypeExpr ρ)
  deriving DecidableEq, Repr

namespace TypeExpr

variable {ρ σ : Type}

/-- The reference inside all modifiers. -/
def base : TypeExpr ρ → ρ
  | .named ref => ref
  | .list item => item.base
  | .nonNull inner => inner.base

/-- The same modifiers around another reference. -/
def map (f : ρ → σ) : TypeExpr ρ → TypeExpr σ
  | .named ref => .named (f ref)
  | .list item => .list (item.map f)
  | .nonNull inner => .nonNull (inner.map f)

/-- Whether null is no value of the type. -/
def isNonNull : TypeExpr ρ → Bool
  | .nonNull _ => true
  | _ => false

/-- Whether the outermost modifier is a list. -/
def isList : TypeExpr ρ → Bool
  | .list _ => true
  | _ => false

/-- The type without its outermost modifier, if it has one. -/
def inner? : TypeExpr ρ → Option (TypeExpr ρ)
  | .named _ => none
  | .list item => some item
  | .nonNull inner => some inner

/-- A type expression as text. -/
def render : TypeExpr String → String
  | .named name => name
  | .list item => "[" ++ item.render ++ "]"
  | .nonNull inner => inner.render ++ "!"

@[simp] theorem base_map (f : ρ → σ) (t : TypeExpr ρ) : (t.map f).base = f t.base := by
  induction t with
  | named => rfl
  | list _ ih => exact ih
  | nonNull _ ih => exact ih

@[simp] theorem isNonNull_map (f : ρ → σ) (t : TypeExpr ρ) : (t.map f).isNonNull = t.isNonNull := by
  cases t <;> rfl

@[simp] theorem isList_map (f : ρ → σ) (t : TypeExpr ρ) : (t.map f).isList = t.isList := by
  cases t <;> rfl

end TypeExpr

end OpenCrud
