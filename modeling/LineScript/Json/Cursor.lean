/-!
# Reading positions in a JSON text

A reader moves a cursor over the characters of a text. The cursor counts lines from one and,
within a line, bytes of UTF-8, because that is how positions are reported. A flaw is reported
either where the reader stands or one byte further.
-/

namespace LineScript.Json

/-- A place in a text: the line, from one, and the number of bytes before it on that line. -/
structure Place where
  line : Nat
  column : Nat
deriving DecidableEq

/-- What is left to read, and the place where it begins. -/
structure Cursor where
  rest : List Char
  place : Place

/-- What can be wrong with the form of a JSON text. -/
inductive Flaw where
  | endInValue | endInObject | endInList | endInString
  | badLiteral | noValue | keyNotString | noColon | noCommaOrBrace | noCommaOrBracket
  | trailingComma | trailingCharacters
  | badEscape | halfSurrogate | loneSurrogate | controlCharacter
  | badNumber | numberTooLarge | tooDeep
deriving DecidableEq

namespace Flaw

/-- The wording of a flaw, without its place. -/
def message : Flaw → String
  | endInValue => "EOF while parsing a value"
  | endInObject => "EOF while parsing an object"
  | endInList => "EOF while parsing a list"
  | endInString => "EOF while parsing a string"
  | badLiteral => "expected ident"
  | noValue => "expected value"
  | keyNotString => "key must be a string"
  | noColon => "expected `:`"
  | noCommaOrBrace => "expected `,` or `\x7d`"
  | noCommaOrBracket => "expected `,` or `]`"
  | trailingComma => "trailing comma"
  | trailingCharacters => "trailing characters"
  | badEscape => "invalid escape"
  | halfSurrogate => "unexpected end of hex escape"
  | loneSurrogate => "lone leading surrogate in hex escape"
  | controlCharacter => "control character (\\u0000-\\u001F) found while parsing a string"
  | badNumber => "invalid number"
  | numberTooLarge => "number out of range"
  | tooDeep => "recursion limit exceeded"

/-- Whether the text ended too early. -/
def isEnd : Flaw → Bool
  | endInValue | endInObject | endInList | endInString => true
  | _ => false

end Flaw

/-- A flaw and where it is reported. -/
structure Problem where
  flaw : Flaw
  place : Place
deriving DecidableEq

/-- The result of reading something: the thing and what follows it, or the first problem. -/
abbrev Reading (α : Type) := Except Problem (α × Cursor)

/-- The place `count` bytes further, or the end of the text if that comes first. -/
def Place.afterBytes (place : Place) : Nat → List Char → Place
  | 0, _ => place
  | _ + 1, [] => place
  | count + 1, c :: rest =>
    if c = '\n' then Place.afterBytes ⟨place.line + 1, 0⟩ count rest
    else if c.utf8Size ≤ count + 1 then
      Place.afterBytes ⟨place.line, place.column + c.utf8Size⟩ (count + 1 - c.utf8Size) rest
    else ⟨place.line, place.column + (count + 1)⟩
termination_by _ rest => rest.length

namespace Cursor

/-- The start of a text. -/
def start (text : List Char) : Cursor := ⟨text, ⟨1, 0⟩⟩

/-- The cursor behind the next character. -/
def advance (cursor : Cursor) : Cursor :=
  match cursor.rest with
  | [] => cursor
  | '\n' :: rest => ⟨rest, ⟨cursor.place.line + 1, 0⟩⟩
  | c :: rest => ⟨rest, ⟨cursor.place.line, cursor.place.column + c.utf8Size⟩⟩

/-- The cursor behind the next `count` characters. -/
def skip : Nat → Cursor → Cursor
  | 0, cursor => cursor
  | count + 1, cursor => skip count cursor.advance

/-- Reports a flaw where the cursor stands. -/
def failHere {α : Type} (cursor : Cursor) (flaw : Flaw) : Except Problem α :=
  .error ⟨flaw, cursor.place⟩

/-- Reports a flaw one byte further, if there is one. -/
def failNext {α : Type} (cursor : Cursor) (flaw : Flaw) : Except Problem α :=
  .error ⟨flaw, cursor.place.afterBytes 1 cursor.rest⟩

/-- Whether a character may stand between the parts of a JSON text. -/
def isSpace (c : Char) : Bool :=
  c = ' ' || c = '\t' || c = '\n' || c = '\r'

/-- The cursor at the next character that is not a space, with that character. -/
def skipSpace (cursor : Cursor) : Option Char × Cursor :=
  let cursor := skip (cursor.rest.takeWhile isSpace).length cursor
  (cursor.rest.head?, cursor)

end Cursor

end LineScript.Json
