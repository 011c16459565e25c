import OpenCrud.Schema.Description
import OpenCrud.Sdl.Document

/-!
# Literals as text

How messages show a literal. Lists and objects stand on one line if it is short enough, else each item stands
on a line of its own, one level deeper. On the deepest level and below it, blanks stand for the line ends.
-/

namespace OpenCrud.Sdl.Literal

/-- A text, and whether it was too long for one line. -/
structure Layout where
  text : List Char
  isBroken : Bool := false

/-- The most characters that a list or an object on one line can have. -/
def maxLine : Nat := 80

/-- How many levels of lists and objects can be indented. -/
def maxIndents : Nat := 100

/-- What stands between two items, or between an item and a bracket, where `indents` more levels can be
indented. -/
def lineEnd (indents : Nat) : Char := if indents = 0 then ' ' else '\n'

/-- Items between an opening and a closing text, where `indents` more levels can be indented: on one line with
`gap` inside the two, or, if that is too long or an item is broken, one item a line. -/
def bracketed (indents : Nat) (opening gap closing : List Char) (items : List Layout) : Layout :=
  let texts := items.map (·.text)
  let line := opening ++ gap ++ [',', ' '].intercalate texts ++ gap ++ closing
  if line.length ≤ maxLine && !items.any (·.isBroken) then { text := line }
  else
    let inside := [lineEnd (indents - 1)].intercalate texts
    let block := if indents = 0 then inside else ' ' :: ' ' :: Description.indentLines [' ', ' '] inside
    { text := opening ++ lineEnd indents :: block ++ lineEnd indents :: closing, isBroken := true }

mutual

/-- The layout of a literal, where `indents` levels can be indented. -/
def layout (indents : Nat) : Literal → Layout
  | .null => { text := "null".toList }
  | .bool b => { text := (if b then "true" else "false").toList }
  | .int text | .float text | .enum text => { text := text.toList }
  | .string value => { text := Description.quoted value.toList }
  | .blockString value => { text := Description.block value.toList }
  | .variable name => { text := '$' :: name.toList }
  | .list items => bracketed indents ['['] [] [']'] (layoutItems (indents - 1) items)
  | .object entries => bracketed indents ['\x7b'] [' '] ['\x7d'] (layoutEntries (indents - 1) entries)

/-- The layouts of the items of a list. -/
def layoutItems (indents : Nat) : List Literal → List Layout
  | [] => []
  | x :: xs => layout indents x :: layoutItems indents xs

/-- The layouts of the entries of an object. -/
def layoutEntries (indents : Nat) : List (String × Literal) → List Layout
  | [] => []
  | (key, x) :: xs =>
    let value := layout indents x
    { value with text := key.toList ++ ':' :: ' ' :: value.text } :: layoutEntries indents xs

end

/-- The text of a literal. -/
def print (value : Literal) : List Char := (layout maxIndents value).text

end OpenCrud.Sdl.Literal
