import OpenCrud.Sdl.BlockString
import OpenCrud.Text.Lines
import OpenCrud.Text.Quoted

/-!
# Descriptions as text

A description is printed as a block string when one can hold it exactly, else as a quoted string. A block
string puts its text on lines of its own when that reads better.
-/

namespace OpenCrud.Description

open OpenCrud.Sdl.BlockString (isBlank)

/-! ## Quoted strings -/

/-- One character of a quoted string. -/
def escapeChar (c : Char) : List Char :=
  if c = '"' then ['\\', '"']
  else if c = '\\' then ['\\', '\\']
  else if c = '\x08' then ['\\', 'b']
  else if c = '\t' then ['\\', 't']
  else if c = '\n' then ['\\', 'n']
  else if c = '\x0c' then ['\\', 'f']
  else if c = '\r' then ['\\', 'r']
  else if c.toNat < 0x20 || 0x7f ≤ c.toNat && c.toNat ≤ 0x9f then
    '\\' :: 'u' :: (Text.hexDigits 4 c.toNat).map Char.toUpper
  else [c]

/-- A quoted string. -/
def quoted (text : List Char) : List Char := '"' :: text.flatMap escapeChar ++ ['"']

/-! ## Block strings -/

/-- Whether a character can stand in a block string: no control character up to U+000F but the tab and the
line feed. -/
def isBlockChar (c : Char) : Bool := c = '\n' || isBlank c || 0x0f < c.toNat

/-- Whether a line holds something and starts with a blank. -/
def isIndented (line : List Char) : Bool := line.head?.any isBlank

/-- Whether a block string can hold a text exactly: reading it back would strip blank lines at the two ends
and the indentation shared by all lines. -/
def fitsBlock (text : List Char) : Bool :=
  let lines := Text.splitLines text
  let filled := lines.filter fun line => !line.all isBlank
  text.isEmpty ||
    text.all isBlockChar
      && !(lines.head?.any (·.all isBlank))
      && !(lines.getLast?.any (·.all isBlank))
      && (lines.length = 1 || !filled.all isIndented)

/-- A text with a backslash before every three quotes. -/
def escapeQuotes : List Char → List Char
  | '"' :: '"' :: '"' :: cs => '\\' :: '"' :: '"' :: '"' :: escapeQuotes cs
  | c :: cs => c :: escapeQuotes cs
  | [] => []

/-- Texts of more characters than this get lines of their own. -/
def longText : Nat := 70

/-- A block string. -/
def block (text : List Char) : List Char :=
  let escaped := escapeQuotes text
  let lines := Sdl.BlockString.lines escaped
  let isSingle := lines.length = 1
  let later := lines.tail
  let breakFirst := !isSingle && later.all fun line => line.isEmpty || isIndented line
  let endsOpen := match text.getLast? with
    | some c => c = '"' || c = '\\'
    | none => false
  let ownLines := !isSingle || longText < text.length || endsOpen
  let skipBreak := isSingle && isIndented text
  let start := if (ownLines && !skipBreak) || breakFirst then ['\n'] else []
  let stop := if ownLines then ['\n'] else []
  ['"', '"', '"'] ++ start ++ escaped ++ stop ++ ['"', '"', '"']

/-! ## Placing -/

/-- A description as a string literal. -/
def literal (text : List Char) : List Char := if fitsBlock text then block text else quoted text

/-- A text with an indentation behind every line feed. -/
def indentLines (indent : List Char) (text : List Char) : List Char :=
  text.flatMap fun c => if c = '\n' then '\n' :: indent else [c]

/-- The lines that a description puts before what it describes. Inside a block, a described item that is
not the first has an empty line before it. -/
def render (description : Option String) (indent : String) (isFirst : Bool) : String :=
  match description with
  | none => ""
  | some text =>
    let gap := if indent.isEmpty || isFirst then "" else "\n"
    gap ++ indent ++
      String.ofList (indentLines indent.toList (literal text.toList)) ++ "\n"

end OpenCrud.Description
