import OpenCrud.Sdl.Place
import OpenCrud.Sdl.Token
import OpenCrud.Text.Quoted

/-!
# Faults of a source text

Everything that keeps a text from being a document, one constructor a cause, and the wording of each. A fault
has its place, which a message can show or leave out.
-/

namespace OpenCrud.Sdl

/-- What a document needs at some place. -/
inductive Expectation where
  | punctuator (p : Punctuator)
  | keyword (word : String)
  | name
  | endOfSource
  deriving DecidableEq

/-- How messages name what is needed. -/
def Expectation.describe : Expectation → String
  | .punctuator p => "'" ++ p.text ++ "'"
  | .keyword word => "'" ++ word ++ "'"
  | .name => "Name"
  | .endOfSource => Token.endOfSource.describe

/-- Why a text is no document. -/
inductive Fault where
  | unexpectedCharacter (c : Char)
  | singleQuote
  | twoDots
  | missingWholePart (digits : String)
  | digitAfterZero (c : Char)
  | expectedDigit (c : Option Char)
  | unterminatedString
  | badEscape (text : String)
  | badUnicodeEscape (text : String)
  | expected (what : Expectation) (found : Token)
  | unexpected (found : Token)
  | reservedEnumValue (found : Token)
  | variableInConstant (name : String)
  | describedShorthand
  | misplacedDescription
  | nestedTooDeeply
  deriving DecidableEq

/-- A character as messages show it: printable ASCII as it is, else its code point; `none` is the end of
the source. -/
def describeChar : Option Char → String
  | none => "<EOF>"
  | some c =>
    if 0x20 ≤ c.toNat && c.toNat ≤ 0x7e then "'" ++ c.toString ++ "'"
    else "U+" ++ String.ofList ((Text.hexDigits 4 c.toNat).map Char.toUpper)

/-- The text of a fault. -/
def Fault.message : Fault → String
  | .unexpectedCharacter c => "Unexpected character: " ++ describeChar (some c) ++ "."
  | .singleQuote =>
    "Unexpected single quote character ('), did you mean to use a double quote (\")?"
  | .twoDots => "Unexpected '..', did you mean '...'?"
  | .missingWholePart digits =>
    "Invalid number, expected digit before '.', did you mean '0." ++ digits ++ "'?"
  | .digitAfterZero c => "Invalid number, unexpected digit after 0: " ++ describeChar (some c) ++ "."
  | .expectedDigit c => "Invalid number, expected digit but got: " ++ describeChar c ++ "."
  | .unterminatedString => "Unterminated string."
  | .badEscape text => "Invalid character escape sequence: '" ++ text ++ "'."
  | .badUnicodeEscape text => "Invalid Unicode escape sequence: '" ++ text ++ "'."
  | .expected what found => "Expected " ++ what.describe ++ ", found " ++ found.describe ++ "."
  | .unexpected found => "Unexpected " ++ found.describe ++ "."
  | .reservedEnumValue found =>
    found.describe ++ " is reserved and cannot be used for an enum value."
  | .variableInConstant name => "Unexpected variable '$" ++ name ++ "' in constant value."
  | .describedShorthand =>
    "Unexpected description, descriptions are not supported on shorthand queries."
  | .misplacedDescription =>
    "Unexpected description, only GraphQL definitions support descriptions."
  | .nestedTooDeeply => "Document is nested too deeply. Parsing aborted."

/-- A fault at a place of a source. -/
structure PlacedFault where
  fault : Fault
  place : Place

/-- The text of a fault with its place. -/
def PlacedFault.message (source : List Char) (e : PlacedFault) : String :=
  "Syntax Error: " ++ e.fault.message ++ "\n\n" ++ e.place.render source

end OpenCrud.Sdl
