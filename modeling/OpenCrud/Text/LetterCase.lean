import OpenCrud.Text.CasePairs

/-!
# Letter case

Upper and lower case of single characters. ASCII letters map by the standard library, all other letters by
tables; a character that is in no table has no case. The other case of a letter is usually one character and
at most three.

What depends on the place of a letter in its word is left out: a capital sigma always becomes the small
letter of the middle of a word.
-/

namespace OpenCrud.Text

/-- The upper case of a code point beyond ASCII. -/
def upperCode (n : Nat) : List Nat :=
  match upperLong.lookup n with
  | some long => long
  | none =>
    match casePairs.findSome? (·.capital? n) with
    | some capital => [capital]
    | none => [(upperOnly.lookup n).getD n]

/-- The lower case of a code point beyond ASCII. -/
def lowerCode (n : Nat) : List Nat :=
  match lowerLong.lookup n with
  | some long => long
  | none => [((casePairs ++ lowerOnly).findSome? (·.small? n)).getD n]

/-- The upper case of a character. -/
def upperChar (c : Char) : List Char :=
  if c.toNat < 0x80 then [c.toUpper] else (upperCode c.toNat).map Char.ofNat

/-- The lower case of a character. -/
def lowerChar (c : Char) : List Char :=
  if c.toNat < 0x80 then [c.toLower] else (lowerCode c.toNat).map Char.ofNat

/-- A text in lower case. -/
def lower (cs : List Char) : List Char := cs.flatMap lowerChar

/-- An ASCII character has a single lower-case character. -/
theorem lowerChar_ascii {c : Char} (h : c.toNat < 0x80) : lowerChar c = [c.toLower] := by
  simp [lowerChar, h]

/-- An ASCII character has a single upper-case character. -/
theorem upperChar_ascii {c : Char} (h : c.toNat < 0x80) : upperChar c = [c.toUpper] := by
  simp [upperChar, h]

end OpenCrud.Text
