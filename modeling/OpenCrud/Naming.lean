import OpenCrud.Text.LetterCase

/-!
# Names of root fields

A model gives its name to several root fields: with a small or a capital first letter, and in the
singular or the plural. The plural follows English spelling rules and touches only the last segment
of a name in camel case, so `BlogCategory` becomes `BlogCategories`.

The functions on `List Char` do the work; the ones on `String` are the public names.
-/

namespace OpenCrud.Naming

open OpenCrud.Text

/-! ## First letters -/

/-- A word with its first letter in lower case. -/
def lowerFirstChars : List Char → List Char
  | [] => []
  | c :: cs => lowerChar c ++ cs

/-- A word with its first letter in upper case. -/
def upperFirstChars : List Char → List Char
  | [] => []
  | c :: cs => upperChar c ++ cs

/-- A name with its first letter in lower case: `UserPost` becomes `userPost`. -/
def lowerFirst (name : String) : String := String.ofList (lowerFirstChars name.toList)

/-- A name with its first letter in upper case: `userPost` becomes `UserPost`. -/
def upperFirst (name : String) : String := String.ofList (upperFirstChars name.toList)

/-! ## Plurals of one word -/

/-- Words that have no plural of their own. -/
def uncountable : List String :=
  ["news", "information", "equipment", "series", "species", "data"]

/-- Words whose plural follows no rule. -/
def irregularPlurals : List (String × String) :=
  [("person", "people"), ("child", "children"), ("man", "men"), ("woman", "women"),
   ("mouse", "mice"), ("datum", "data"), ("medium", "media"), ("criterion", "criteria"),
   ("index", "indices"), ("matrix", "matrices"), ("vertex", "vertices")]

/-- Whether a word ends in one of the given endings. -/
def endsInOneOf (word : List Char) (endings : List String) : Bool :=
  endings.any fun ending => ending.toList.isSuffixOf word

/-- Whether a lower-case word ends in `y` after something other than a vowel. -/
def endsInConsonantY (word : List Char) : Bool :=
  match word.reverse with
  | 'y' :: c :: _ => !"aeiou".toList.contains c
  | _ => false

/-- The plural of a word by the spelling rules, tried in order; the endings are looked up in `lowered`,
the word in lower case. -/
def inflectRegular (word lowered : List Char) : List Char :=
  if endsInOneOf lowered ["s", "x", "z", "ch", "sh"] then word ++ "es".toList
  else if endsInConsonantY lowered then word.dropLast ++ "ies".toList
  else if endsInOneOf lowered ["fe"] then word.dropLast.dropLast ++ "ves".toList
  else if endsInOneOf lowered ["elf", "alf", "olf", "eaf", "oaf", "arf"] then
    word.dropLast ++ "ves".toList
  else word ++ "s".toList

/-- The plural of a single word. Letter case does not matter for the tables, and an irregular plural
takes a capital when the word has one. -/
def inflect (word : List Char) : List Char :=
  let lowered := lower word
  if (uncountable.map String.toList).contains lowered then word
  else match (irregularPlurals.map fun p => (p.1.toList, p.2.toList)).lookup lowered with
    | some plural => if word.head?.any Char.isUpper then upperFirstChars plural else plural
    | none => inflectRegular word lowered

/-! ## Plurals of camel-case names -/

/-- A text without the one line feed it may end in. -/
def dropFinalNewline (cs : List Char) : List Char :=
  match cs.reverse with
  | '\n' :: rest => rest.reverse
  | _ => cs

/-- Splits off the last camel-case segment: one ASCII capital and one or more ASCII small letters at the
end, after a non-empty first part without a line feed. One line feed at the very end is dropped. -/
def splitCamel? (cs : List Char) : Option (List Char × List Char) :=
  match (dropFinalNewline cs).reverse.span Char.isLower with
  | ([], _) => none
  | (_, []) => none
  | (small, capital :: rest) =>
    if capital.isUpper && !rest.isEmpty && !rest.contains '\n' then
      some (rest.reverse, capital :: small.reverse)
    else none

/-- The plural of a word, inflecting only its last camel-case segment. -/
def pluralizeChars (word : List Char) : List Char :=
  match word with
  | [] => []
  | _ =>
    match splitCamel? word with
    | some (start, segment) => start ++ inflect segment
    | none => inflect word

/-- The plural of a name: `BlogPost` becomes `BlogPosts`. -/
def pluralize (name : String) : String := String.ofList (pluralizeChars name.toList)

/-- The name of a list of a type. A word that is its own plural gets `all` in front, so the list never
shares its name with the single item. -/
def pluralName (typeName : String) : String :=
  let plural := pluralize typeName
  if plural = typeName then "all" ++ plural else plural

end OpenCrud.Naming
