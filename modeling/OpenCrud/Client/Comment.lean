import OpenCrud.Text.Lines

/-!
# Comments

Descriptions become block comments in the bindings. A type's description has a star in front of every line;
a scalar's description stands as it is. No description and an empty one give no comment.
-/

namespace OpenCrud.Client

/-- A comment with a star in front of every line of the description. -/
def starredComment (description : String) : String :=
  let line (cs : List Char) : String := " * " ++ String.ofList cs ++ "\n"
  "/*\n" ++ String.join ((Text.splitLines description.toList).map line) ++ " */\n"

/-- A comment with the description as it is. -/
def plainComment (description : String) : String := "/*\n" ++ description ++ "\n*/\n"

/-- The comment of a description that is there and not empty. -/
def commentOf (comment : String → String) (description : Option String) : String :=
  match description with
  | none => ""
  | some text => if text.isEmpty then "" else comment text

/-- The comment before a type. -/
def describe : Option String → String := commentOf starredComment

/-- The comment before a scalar. -/
def comment : Option String → String := commentOf plainComment

end OpenCrud.Client
