import OpenCrud.Text.Quoted

/-!
# Names

A name is a letter or an underscore followed by letters, digits and underscores, all ASCII. `Name` is a
text with a proof of that; `nameFault?` says why a text is no name.
-/

namespace OpenCrud

/-- Whether a character can start a name. -/
def isNameStart (c : Char) : Bool := c.isAlpha || c = '_'

/-- Whether a character can continue a name. -/
def isNameContinue (c : Char) : Bool := c.isAlphanum || c = '_'

/-- Whether a text is a name. -/
def isName : List Char → Bool
  | [] => false
  | c :: cs => isNameStart c && cs.all isNameContinue

/-- A text that is a name. -/
structure Name where
  text : String
  isName_text : isName text.toList = true
  deriving DecidableEq

/-- The name read at the front of a text that starts with the start of a name. -/
def Name.take (c : Char) (cs : List Char) (h : isNameStart c = true) : Name where
  text := String.ofList (c :: cs.takeWhile isNameContinue)
  isName_text := by simp [isName, h]

/-- Why a text is no name. -/
inductive NameFault where
  | empty
  | badCharacter (text : String)
  | badStart (text : String)
  | reservedValue (text : String)
  deriving DecidableEq, Repr

/-- The text of a fault. -/
def NameFault.message : NameFault → String
  | .empty => "Expected name to be a non-empty string."
  | .badCharacter text => "Names must only contain [_a-zA-Z0-9] but " ++ Text.quote text ++ " does not."
  | .badStart text => "Names must start with [_a-zA-Z] but " ++ Text.quote text ++ " does not."
  | .reservedValue text => "Enum values cannot be named: " ++ text ++ "."

/-- What keeps a text from being a name; characters after the first are looked at before the first. -/
def nameFault? (text : String) : Option NameFault :=
  match text.toList with
  | [] => some .empty
  | c :: cs =>
    if !cs.all isNameContinue then some (.badCharacter text)
    else if !isNameStart c then some (.badStart text)
    else none

/-- The words that no enum value can have as its name. -/
def reservedValues : List String := ["true", "false", "null"]

/-- What keeps a text from being the name of an enum value. -/
def valueNameFault? (text : String) : Option NameFault :=
  match nameFault? text with
  | some fault => some fault
  | none => if reservedValues.contains text then some (.reservedValue text) else none

/-- A text has no fault exactly when it is a name. -/
theorem nameFault?_eq_none_iff (text : String) : nameFault? text = none ↔ isName text.toList := by
  unfold nameFault? isName
  cases text.toList with
  | nil => simp
  | cons c cs => by_cases h : cs.all isNameContinue <;> by_cases g : isNameStart c <;> simp [h, g]

end OpenCrud
