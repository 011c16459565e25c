import OpenCrud.Value

/-!
# Arguments as text

The arguments of a request are written in ASCII with the keys of every object in order, so two objects
with the same entries have the same text.
-/

namespace OpenCrud.Value

/-! ## Truth -/

/-- Whether a value counts as true: zeros, empty values and null do not. -/
def isTruthy : Value → Bool
  | .null => false
  | .bool b => b
  | .int n => n ≠ 0
  | .float d => !d.isZero
  | .text s => !s.isEmpty
  | .list items => !items.isEmpty
  | .object entries => !entries.isEmpty

/-! ## Text -/

/-- A UTF-16 unit as an escape. -/
def escapeUnit (unit : Nat) : List Char := '\\' :: 'u' :: Text.hexDigits 4 unit

/-- One character of a quoted key text. -/
def escapeKeyChar (c : Char) : List Char :=
  if c = '"' then ['\\', '"']
  else if c = '\\' then ['\\', '\\']
  else if c = '\n' then ['\\', 'n']
  else if c = '\r' then ['\\', 'r']
  else if c = '\t' then ['\\', 't']
  else if c = '\x0c' then ['\\', 'f']
  else if c = '\x08' then ['\\', 'b']
  else if 0x20 ≤ c.toNat && c.toNat ≤ 0x7e then [c]
  else if c.toNat < 0x10000 then escapeUnit c.toNat
  else
    escapeUnit (0xd800 + (c.toNat - 0x10000) / 0x400)
      ++ escapeUnit (0xdc00 + (c.toNat - 0x10000) % 0x400)

/-- A text between double quotes, in ASCII. -/
def quoteKey (s : String) : String :=
  String.ofList ('"' :: s.toList.flatMap escapeKeyChar ++ ['"'])

/-- The texts of the infinite double and of the double that is no number. -/
def keyFloats : Double.SpecialNames := ⟨"Infinity", "NaN"⟩

mutual

/-- A value as key text. -/
def keyText : Value → String
  | .null => "null"
  | .bool b => if b then "true" else "false"
  | .int n => toString n
  | .float d => d.render keyFloats
  | .text s => quoteKey s
  | .list items => "[" ++ ", ".intercalate (keyTexts items) ++ "]"
  | .object entries =>
    let sorted := (keyEntries entries).mergeSort fun a b => a.1 ≤ b.1
    "\x7b" ++ ", ".intercalate (sorted.map fun entry => quoteKey entry.1 ++ ": " ++ entry.2) ++ "\x7d"

/-- The items of a list as key texts. -/
def keyTexts : List Value → List String
  | [] => []
  | x :: xs => keyText x :: keyTexts xs

/-- The entries of an object with their values as key texts. -/
def keyEntries : List (String × Value) → List (String × String)
  | [] => []
  | (key, x) :: xs => (key, keyText x) :: keyEntries xs

end

end OpenCrud.Value
