/-!
# Locations

The full path of a path: it starts at a directory, and steps that stay or go back are carried out.
-/

namespace OpenCrud.CommandLine

/-- The steps of a path. -/
def pathSteps : List Char → List (List Char)
  | [] => [[]]
  | c :: cs =>
    if c = '/' then [] :: pathSteps cs
    else match pathSteps cs with
      | [] => [[c]]
      | step :: rest => (c :: step) :: rest

/-- Goes one step from a place, which is the list of steps that lead to it, the last one first. -/
def takeStep (place : List (List Char)) (step : List Char) : List (List Char) :=
  if step.isEmpty || step = ['.'] then place
  else if step = ['.', '.'] then place.tail
  else step :: place

/-- The steps that lead to a path from a directory. -/
def stepsTo (directory path : List Char) : List (List Char) :=
  let start := if path.head? = some '/' then [] else (pathSteps directory).foldl takeStep []
  ((pathSteps path).foldl takeStep start).reverse

/-- The full path of a path seen from a directory. -/
def fullPath (directory path : String) : String :=
  String.ofList ('/' :: ['/'].intercalate (stepsTo directory.toList path.toList))

end OpenCrud.CommandLine
