/-!
# Block strings

The value of a block string is its text without the indentation that its lines share and without the
blank lines at its two ends. The first line takes no part in the shared indentation.
-/

namespace OpenCrud.Sdl.BlockString

/-- Whether a character indents a line. -/
def isBlank (c : Char) : Bool := c = ' ' || c = '\t'

/-- The lines of a text, split at `\n`, `\r\n` and `\r`. -/
def lines : List Char → List (List Char)
  | [] => [[]]
  | '\r' :: '\n' :: cs => [] :: lines cs
  | '\r' :: cs => [] :: lines cs
  | '\n' :: cs => [] :: lines cs
  | c :: cs =>
    match lines cs with
    | [] => [[c]]
    | line :: rest => (c :: line) :: rest

/-- The number of blanks at the start of a line. -/
def indent (line : List Char) : Nat := (line.takeWhile isBlank).length

/-- The smallest indentation of the lines that are not blank, if there is one. -/
def commonIndent (lines : List (List Char)) : Option Nat :=
  ((lines.filter fun line => !line.all isBlank).map indent).min?

/-- The lines between the first and the last one that is not blank, both included. -/
def trim (lines : List (List Char)) : List (List Char) :=
  let noBlankStart := lines.dropWhile (·.all isBlank)
  (noBlankStart.reverse.dropWhile (·.all isBlank)).reverse

/-- The lines without the indentation that all but the first share. -/
def dedent : List (List Char) → List (List Char)
  | [] => []
  | first :: rest =>
    let shared := (commonIndent rest).getD 0
    first :: rest.map (·.drop shared)

/-- The value of a block string with this raw text. -/
def cook (raw : List Char) : List Char :=
  ['\n'].intercalate (trim (dedent (lines raw)))

end OpenCrud.Sdl.BlockString
