import OpenCrud.Decimal.Shortest
import OpenCrud.FieldMap
import OpenCrud.Text.Quoted

/-!
# Constant values

The values that a datamodel can give as the argument of a directive. A name and a string are both text;
integers have any size. `Value.same` is the equality by which relation names are compared: numbers and
truth values compare as numbers, exactly, and the entries of an object have no order.
-/

namespace OpenCrud

/-- A constant value. -/
inductive Value where
  | null
  | bool (b : Bool)
  | int (n : Int)
  | float (d : Double)
  | text (s : String)
  | list (items : List Value)
  | object (entries : List (String × Value))
  deriving Repr, Inhabited

namespace Value

/-! ## Equality -/

/-- Whether a value is the float that is no number. -/
def isNaN : Value → Bool
  | .float d => d.isNaN
  | _ => false

/-- The integer that a truth value or an integer stands for. -/
def integer? : Value → Option Int
  | .bool b => some (if b then 1 else 0)
  | .int n => some n
  | _ => none

/-- Whether two values without parts are the same: numbers and truth values as numbers. -/
def sameAtom (a b : Value) : Bool :=
  match a, b with
  | .null, .null => true
  | .text s, .text t => s = t
  | .float x, .float y => x.same y
  | .float x, y => y.integer?.any x.isInt
  | x, .float y => x.integer?.any y.isInt
  | x, y => match x.integer?, y.integer? with
    | some m, some n => m = n
    | _, _ => false

mutual

/-- Whether two values are the same. Lists compare item by item, objects key by key. -/
def same : Value → Value → Bool
  | .list xs, .list ys => sameItems xs ys
  | .object xs, .object ys => xs.length = ys.length && sameEntries xs ys
  | x, y => sameAtom x y

/-- Whether two lists hold the same values. Inside a list, a float that is no number is the same as
itself. -/
def sameItems : List Value → List Value → Bool
  | [], [] => true
  | x :: xs, y :: ys => ((x.isNaN && y.isNaN) || same x y) && sameItems xs ys
  | _, _ => false

/-- Whether every entry is found among the others. -/
def sameEntries : List (String × Value) → List (String × Value) → Bool
  | [], _ => true
  | (key, x) :: xs, ys =>
    (match ys.lookup key with
      | some y => (x.isNaN && y.isNaN) || same x y
      | none => false) && sameEntries xs ys

end

/-- Whether two optional values are both absent or the same. -/
def sameOption : Option Value → Option Value → Bool
  | none, none => true
  | some x, some y => same x y
  | _, _ => false

/-! ## Presence -/

/-- A value that is there; the null value stands for an absent one. -/
def present? : Value → Option Value
  | .null => none
  | v => some v

/-! ## Text -/

/-- The texts of the infinite double and of the double that is no number. -/
def specialFloats : Double.SpecialNames := ⟨"inf", "nan"⟩

mutual

/-- A value as messages show it. -/
def render : Value → String
  | .null => "None"
  | .bool b => if b then "True" else "False"
  | .int n => toString n
  | .float d => d.render specialFloats
  | .text s => Text.quote s
  | .list items => "[" ++ ", ".intercalate (renderItems items) ++ "]"
  | .object entries => "\x7b" ++ ", ".intercalate (renderEntries entries) ++ "\x7d"

/-- The items of a list as messages show them. -/
def renderItems : List Value → List String
  | [] => []
  | x :: xs => render x :: renderItems xs

/-- The entries of an object as messages show them. -/
def renderEntries : List (String × Value) → List String
  | [] => []
  | (key, x) :: xs => (Text.quote key ++ ": " ++ render x) :: renderEntries xs

end

end Value

end OpenCrud
