/-!
# Lines

The lines of texts. Two rules are in use: a line ends at a line feed, or at any of the characters that
break lines in Unicode.
-/

namespace OpenCrud.Text

/-- The parts of a text between its line feeds. -/
def splitLines : List Char → List (List Char)
  | [] => [[]]
  | c :: cs =>
    if c = '\n' then [] :: splitLines cs
    else match splitLines cs with
      | [] => [[c]]
      | line :: rest => (c :: line) :: rest

/-- Whether a character ends a line. -/
def isLineBreak (c : Char) : Bool :=
  [0x0a, 0x0b, 0x0c, 0x0d, 0x1c, 0x1d, 0x1e, 0x85, 0x2028, 0x2029].contains c.toNat

/-- The number of lines of a text by that rule, where `isOpen` tells whether a line has begun. A carriage return
with a line feed ends one line, and an empty line at the end does not count. -/
def countLines (isOpen : Bool) : List Char → Nat
  | [] => if isOpen then 1 else 0
  | '\r' :: '\n' :: cs => countLines false cs + 1
  | c :: cs => if isLineBreak c then countLines false cs + 1 else countLines true cs

/-- The number of lines of a text. -/
def lineCount (s : String) : Nat := countLines false s.toList

/-- A text in which every line ends in a line feed, also where it ended in a carriage return. -/
def unifyLineEnds : List Char → List Char
  | [] => []
  | '\r' :: '\n' :: cs => '\n' :: unifyLineEnds cs
  | '\r' :: cs => '\n' :: unifyLineEnds cs
  | c :: cs => c :: unifyLineEnds cs

/-- Splitting at line feeds leaves at least one line. -/
theorem splitLines_ne_nil (cs : List Char) : splitLines cs ≠ [] := by
  cases cs with
  | nil => simp [splitLines]
  | cons c cs => unfold splitLines; split <;> (try split) <;> simp

end OpenCrud.Text
