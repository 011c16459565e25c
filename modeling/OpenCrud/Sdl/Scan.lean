import OpenCrud.Sdl.BlockString
import OpenCrud.Sdl.Fault

/-!
# From characters to tokens

`Tokens.scan` reads a source up to its end or its first fault. Each reader below takes the characters
from its place on and returns what it read and the characters that are left.

## Measure

The readers recurse on the characters. `Tokens.scanFrom` reads at least one character per token, so as
many steps as there are characters are enough.
-/

namespace OpenCrud.Sdl

/-! ## Characters between tokens -/

/-- Whether a character between tokens means nothing. -/
def isIgnored (c : Char) : Bool :=
  c = ' ' || c = '\t' || c = ',' || c = '\n' || c = '\r' || c = '\ufeff'

/-- Drops the characters before the next token; `inComment` tells whether the place is inside a comment,
which lasts until the end of the line. -/
def skipIgnored (inComment : Bool) : List Char → List Char
  | [] => []
  | c :: cs =>
    if inComment then skipIgnored (!(c = '\n' || c = '\r')) cs
    else if c = '#' then skipIgnored true cs
    else if isIgnored c then skipIgnored false cs
    else c :: cs

/-! ## Numbers -/

/-- One or more digits. -/
def readDigits (cs : List Char) : Except PlacedFault (List Char × List Char) :=
  match cs.span Char.isDigit with
  | ([], rest) => .error ⟨.expectedDigit rest.head?, rest⟩
  | found => .ok found

/-- The sign and the digits before the point. A zero stands alone. -/
def readWhole (cs : List Char) : Except PlacedFault (List Char × List Char) := do
  let (sign, cs) := match cs with
    | '-' :: rest => (['-'], rest)
    | _ => ([], cs)
  match cs with
  | '0' :: rest =>
    match rest with
    | c :: _ => if c.isDigit then throw ⟨.digitAfterZero c, rest⟩ else pure (sign ++ ['0'], rest)
    | [] => pure (sign ++ ['0'], rest)
  | _ =>
    let (digits, rest) ← readDigits cs
    pure (sign ++ digits, rest)

/-- The point and the digits behind it, if there is a point. -/
def readFraction : List Char → Except PlacedFault (List Char × List Char)
  | '.' :: cs => do
    let (digits, rest) ← readDigits cs
    pure ('.' :: digits, rest)
  | cs => pure ([], cs)

/-- The exponent, if there is one. -/
def readExponent : List Char → Except PlacedFault (List Char × List Char)
  | c :: cs =>
    if c = 'e' || c = 'E' then do
      let (sign, cs) := match cs with
        | s :: rest => if s = '+' || s = '-' then ([s], rest) else ([], cs)
        | [] => ([], cs)
      let (digits, rest) ← readDigits cs
      pure (c :: sign ++ digits, rest)
    else pure ([], c :: cs)
  | [] => pure ([], [])

/-- A number. It has to end where neither a point nor a name goes on. -/
def readNumber (cs : List Char) : Except PlacedFault (Token × List Char) := do
  let (whole, cs) ← readWhole cs
  let (fraction, cs) ← readFraction cs
  let (exponent, cs) ← readExponent cs
  let text := String.ofList (whole ++ fraction ++ exponent)
  let token := if fraction.isEmpty && exponent.isEmpty then Token.int text else Token.float text
  match cs with
  | c :: _ => if c = '.' || isNameStart c then throw ⟨.expectedDigit (some c), cs⟩ else pure (token, cs)
  | [] => pure (token, cs)

/-! ## Strings -/

/-- The value of a hexadecimal digit. -/
def hexValue? (c : Char) : Option Nat :=
  if c.isDigit then some (c.toNat - 0x30)
  else if 'a' ≤ c ∧ c ≤ 'f' then some (c.toNat - 0x57)
  else if 'A' ≤ c ∧ c ≤ 'F' then some (c.toNat - 0x37)
  else none

/-- The value of four hexadecimal digits. -/
def hex4? : List Char → Option Nat
  | a :: b :: c :: d :: _ => do
    pure ((← hexValue? a) * 0x1000 + (← hexValue? b) * 0x100 + (← hexValue? c) * 0x10 + (← hexValue? d))
  | _ => none

/-- The character with this code point, if the code point is a character's. -/
def charOfCode? (n : Nat) : Option Char :=
  if h : n.isValidChar then some ⟨UInt32.ofNat n, by
    rcases h with h | h <;> simp only [UInt32.isValidChar, Nat.isValidChar, UInt32.toNat_ofNat'] <;> omega⟩
  else none

/-- An escape with four hexadecimal digits, from the backslash on: the character and the number of
characters read. A pair of escapes can stand for the two halves of one character. -/
def readUnicode4 (cs : List Char) : Except PlacedFault (Char × Nat) :=
  let bad := Except.error ⟨.badUnicodeEscape (String.ofList (cs.take 6)), cs⟩
  match hex4? (cs.drop 2) with
  | none => bad
  | some high =>
    match charOfCode? high, cs.drop 6 with
    | some c, _ => .ok (c, 6)
    | none, '\\' :: 'u' :: rest =>
      match hex4? rest with
      | some low =>
        if high < 0xDC00 && 0xDC00 ≤ low && low ≤ 0xDFFF then
          match charOfCode? (0x10000 + (high - 0xD800) * 0x400 + (low - 0xDC00)) with
          | some c => .ok (c, 12)
          | none => bad
        else bad
      | none => bad
    | none, _ => bad

/-- The digits of an escape in braces: the code point so far and the number of characters so far, both
counted from the backslash. At most `left` characters are looked at. The second result tells whether the
escape is well formed. -/
def readBraced : (left : Nat) → (code size : Nat) → List Char → (Nat × Nat) × Bool
  | 0, code, size, _ => ((code, size), false)
  | _, code, size, [] => ((code, size), false)
  | left + 1, code, size, c :: cs =>
    if c = '}' then ((code, size + 1), 4 ≤ size)
    else match hexValue? c with
      | some digit => readBraced left (code * 16 + digit) (size + 1) cs
      | none => ((code, size + 1), false)

/-- An escape with a code point in braces, from the backslash on. Nine characters, eight digits and the
brace, are the most that can follow the opening brace. -/
def readUnicodeBraced (cs : List Char) : Except PlacedFault (Char × Nat) :=
  match readBraced 9 0 3 (cs.drop 3) with
  | ((code, size), wellFormed) =>
    match wellFormed, charOfCode? code with
    | true, some c => .ok (c, size)
    | _, _ => .error ⟨.badUnicodeEscape (String.ofList (cs.take size)), cs⟩

/-- The character that a one-letter escape stands for. -/
def simpleEscape? : Char → Option Char
  | '"' => some '"'
  | '\\' => some '\\'
  | '/' => some '/'
  | 'b' => some '\x08'
  | 'f' => some '\x0c'
  | 'n' => some '\n'
  | 'r' => some '\r'
  | 't' => some '\t'
  | _ => none

/-- An escape, from the backslash on: the character it stands for and the number of characters read. -/
def readEscape (cs : List Char) : Except PlacedFault (Char × Nat) :=
  match cs with
  | _ :: 'u' :: '{' :: _ => readUnicodeBraced cs
  | _ :: 'u' :: _ => readUnicode4 cs
  | _ :: c :: _ =>
    match simpleEscape? c with
    | some e => .ok (e, 2)
    | none => .error ⟨.badEscape (String.ofList (cs.take 2)), cs⟩
  | _ => .error ⟨.badEscape (String.ofList (cs.take 2)), cs⟩

/-- The value of a string, behind its opening quote. The first `skip` characters belong to an escape that
was read before. -/
def readString (skip : Nat) : List Char → Except PlacedFault (List Char × List Char)
  | [] => .error ⟨.unterminatedString, []⟩
  | c :: cs =>
    match skip with
    | skip + 1 => readString skip cs
    | 0 =>
      if c = '"' then .ok ([], cs)
      else if c = '\n' || c = '\r' then .error ⟨.unterminatedString, c :: cs⟩
      else if c = '\\' then do
        let (e, size) ← readEscape (c :: cs)
        let (value, rest) ← readString (size - 1) cs
        pure (e :: value, rest)
      else do
        let (value, rest) ← readString 0 cs
        pure (c :: value, rest)

/-- The raw text of a block string, behind its opening quotes. Three quotes end it unless a backslash
stands before them. -/
def readBlock : List Char → Except PlacedFault (List Char × List Char)
  | '"' :: '"' :: '"' :: rest => .ok ([], rest)
  | '\\' :: '"' :: '"' :: '"' :: cs => do
    let (raw, rest) ← readBlock cs
    pure ('"' :: '"' :: '"' :: raw, rest)
  | c :: cs => do
    let (raw, rest) ← readBlock cs
    pure (c :: raw, rest)
  | [] => .error ⟨.unterminatedString, []⟩

/-! ## Tokens -/

/-- A point that starts neither a spread nor a number. -/
def faultAtPoint : List Char → Fault
  | '.' :: _ => .twoDots
  | cs =>
    match cs.takeWhile Char.isDigit with
    | [] => .unexpectedCharacter '.'
    | digits => .missingWholePart (String.ofList digits)

/-- The token that starts with the character `c`. -/
def readToken (c : Char) (cs : List Char) : Except PlacedFault (Token × List Char) :=
  match Punctuator.ofChar? c with
  | some p => .ok (.punctuator p, cs)
  | none =>
    if h : isNameStart c then .ok (.name (.take c cs h), cs.dropWhile isNameContinue)
    else if c.isDigit || c = '-' then readNumber (c :: cs)
    else if c = '"' then
      match cs with
      | '"' :: '"' :: rest => do
        let (raw, rest) ← readBlock rest
        pure (.blockString (String.ofList (BlockString.cook raw)), rest)
      | _ => do
        let (value, rest) ← readString 0 cs
        pure (.string (String.ofList value), rest)
    else if c = '.' then
      match cs with
      | '.' :: '.' :: rest => .ok (.punctuator .spread, rest)
      | _ => .error ⟨faultAtPoint cs, c :: cs⟩
    else if c = '\'' then .error ⟨.singleQuote, c :: cs⟩
    else .error ⟨.unexpectedCharacter c, c :: cs⟩

/-- A token at its place. -/
structure Lexeme where
  token : Token
  place : Place

/-- The tokens of a source: all of them, or those before the first fault. -/
structure Tokens where
  tokens : List Lexeme
  fault : Option PlacedFault := none

/-- Reads at most `steps` tokens. -/
def Tokens.scanFrom : (steps : Nat) → List Char → Tokens
  | 0, _ => { tokens := [] }
  | steps + 1, cs =>
    match skipIgnored false cs with
    | [] => { tokens := [] }
    | c :: cs =>
      match readToken c cs with
      | .error fault => { tokens := [], fault := some fault }
      | .ok (token, rest) =>
        let later := scanFrom steps rest
        { later with tokens := ⟨token, c :: cs⟩ :: later.tokens }

/-- The tokens of a source. -/
def Tokens.scan (cs : List Char) : Tokens := scanFrom (cs.length + 1) cs

end OpenCrud.Sdl
