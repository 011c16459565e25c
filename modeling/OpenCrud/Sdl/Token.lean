import OpenCrud.Sdl.Name

/-!
# Tokens

The words of the schema definition language, and the form in which messages name them.
-/

namespace OpenCrud.Sdl

/-- The punctuators. -/
inductive Punctuator where
  | bang | dollar | amp | parenL | parenR | spread | colon | equals | at | bracketL | bracketR
  | braceL | pipe | braceR
  deriving DecidableEq, Repr

/-- How a punctuator is written. -/
def Punctuator.text : Punctuator → String
  | .bang => "!"
  | .dollar => "$"
  | .amp => "&"
  | .parenL => "("
  | .parenR => ")"
  | .spread => "..."
  | .colon => ":"
  | .equals => "="
  | .at => "@"
  | .bracketL => "["
  | .bracketR => "]"
  | .braceL => "\x7b"
  | .pipe => "|"
  | .braceR => "\x7d"

/-- The punctuator of one character. -/
def Punctuator.ofChar? : Char → Option Punctuator
  | '!' => some .bang
  | '$' => some .dollar
  | '&' => some .amp
  | '(' => some .parenL
  | ')' => some .parenR
  | ':' => some .colon
  | '=' => some .equals
  | '@' => some .at
  | '[' => some .bracketL
  | ']' => some .bracketR
  | '{' => some .braceL
  | '|' => some .pipe
  | '}' => some .braceR
  | _ => none

/-- A token. Numbers keep their text, strings hold what they stand for. -/
inductive Token where
  | punctuator (p : Punctuator)
  | name (n : Name)
  | int (text : String)
  | float (text : String)
  | string (value : String)
  | blockString (value : String)
  | endOfSource
  deriving DecidableEq

namespace Token

/-- The text that a token carries, if it carries one. -/
def value? : Token → Option String
  | .name n => some n.text
  | .int text | .float text => some text
  | .string value | .blockString value => some value
  | .punctuator _ | .endOfSource => none

/-- How messages name a token. -/
def describe : Token → String
  | .punctuator p => "'" ++ p.text ++ "'"
  | .name n => "Name '" ++ n.text ++ "'"
  | .int text => "Int '" ++ text ++ "'"
  | .float text => "Float '" ++ text ++ "'"
  | .string value => "String '" ++ value ++ "'"
  | .blockString value => "BlockString '" ++ value ++ "'"
  | .endOfSource => "<EOF>"

end Token

end OpenCrud.Sdl
