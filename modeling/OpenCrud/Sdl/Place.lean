import OpenCrud.Sdl.BlockString

/-!
# Places in a source

A place is kept as what the source has from there on. Messages show it by its line and its column, and below
that by the line itself, between its neighbours and with a mark under the column. Of a long line only parts
are shown: the first one, those up to the one with the place, and one more.
-/

namespace OpenCrud.Sdl

/-- A place in a source: what the source has from there on. -/
abbrev Place := List Char

/-! ## Listings -/

/-- A text with blanks in front of it, up to a width. -/
def alignRight (width : Nat) (text : List Char) : List Char :=
  List.replicate (width - text.length) ' ' ++ text

/-- Rows with a margin before each; the margins end in one column. -/
def listing (rows : List (List Char × List Char)) : List Char :=
  let width := (rows.map (·.1.length)).max?.getD 0
  ['\n'].intercalate <| rows.map fun (margin, text) =>
    alignRight width margin ++ if text.isEmpty then [] else ' ' :: text

/-- The margin of a line with a number. -/
def numberedMargin (line : Nat) : List Char := (toString line).toList ++ " |".toList

/-- The margin of a row that is no line of the source, or only a part of one. -/
def plainMargin : List Char := ['|']

/-- A row with a mark in a column. -/
def markRow (column : Nat) : List Char × List Char := (plainMargin, alignRight column ['^'])

/-- Lines of more characters than this are shown in parts. -/
def longLine : Nat := 120

/-- The number of characters in a part of a long line. -/
def partSize : Nat := 80

/-- The parts of a long line. -/
def lineParts (line : List Char) : List (List Char) :=
  (List.range ((line.length + partSize - 1) / partSize)).map fun n =>
    (line.drop (n * partSize)).take partSize

/-- The rows that show a column of a long line. The mark stands under the part with the column; the place
behind the last character counts to the last part. -/
def longLineRows (number column : Nat) (line : List Char) : List (List Char × List Char) :=
  let parts := lineParts line
  let later := parts.tail.map (plainMargin, ·)
  let index := min ((column - 1) / partSize) later.length
  (parts.head?.toList.map (numberedMargin number, ·)) ++ later.take index
    ++ markRow (column - index * partSize) :: (later.drop index).take 1

/-- The rows that show a column of a line, given all lines of the source. -/
def lineRows (number column : Nat) (lines : List (List Char)) : List (List Char × List Char) :=
  let row (n : Nat) : List (List Char × List Char) :=
    match n with
    | 0 => []
    | index + 1 => lines[index]?.toList.map (numberedMargin n, ·)
  row (number - 1) ++ row number ++ markRow column :: row (number + 1)

namespace Place

/-- What a source has before a place in it. -/
def before (source : List Char) (place : Place) : List Char :=
  source.take (source.length - place.length)

/-- The line and the column of a place, both counted from one. Where a line has just ended, the place starts
the next one. -/
def position (source : List Char) (place : Place) : Nat × Nat :=
  let lines := BlockString.lines (place.before source)
  (lines.length, (lines.getLast?.getD []).length + 1)

/-- A place as messages show it. -/
def render (source : List Char) (place : Place) : String :=
  let (number, column) := place.position source
  let lines := BlockString.lines source
  let line := lines[number - 1]?.getD []
  let rows := if longLine < line.length then longLineRows number column line
    else lineRows number column lines
  "GraphQL request:" ++ toString number ++ ":" ++ toString column ++ "\n"
    ++ String.ofList (listing rows)

end Place

end OpenCrud.Sdl
