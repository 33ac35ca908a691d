import LineScript.Json.Cursor

/-!
# JSON strings

`quote` writes a string in its shortest form: only quotes, backslashes and control characters
below U+0020 are escaped. Reading accepts every escape of the format. A surrogate must be the
leading half of a pair of `\u` escapes, so what is read is always a sequence of characters.
-/

namespace LineScript.Json

/-- The lower-case hexadecimal digit of a number below sixteen. -/
def hexDigit (n : Nat) : Char :=
  if n < 10 then Char.ofNat ('0'.toNat + n) else Char.ofNat ('a'.toNat + (n - 10))

/-- A character as it is written between quotes. -/
def escape (c : Char) : List Char :=
  if c = '"' then ['\\', '"']
  else if c = '\\' then ['\\', '\\']
  else if c = '\x08' then ['\\', 'b']
  else if c = '\x0c' then ['\\', 'f']
  else if c = '\n' then ['\\', 'n']
  else if c = '\r' then ['\\', 'r']
  else if c = '\t' then ['\\', 't']
  else if c.toNat < 0x20 then
    ['\\', 'u', '0', '0', hexDigit (c.toNat / 16), hexDigit (c.toNat % 16)]
  else [c]

/-- A string as it is written in a JSON text. -/
def quote (text : String) : String :=
  String.ofList ('"' :: text.toList.flatMap escape ++ ['"'])

/-- The character that a letter stands for after a backslash. -/
def unescape? (letter : Char) : Option Char :=
  match letter with
  | '"' => some '"'
  | '\\' => some '\\'
  | '/' => some '/'
  | 'b' => some '\x08'
  | 'f' => some '\x0c'
  | 'n' => some '\n'
  | 'r' => some '\r'
  | 't' => some '\t'
  | _ => none

/-- The value of a hexadecimal digit in either case. -/
def hexValue? (c : Char) : Option Nat :=
  if c.isDigit then some (c.toNat - '0'.toNat)
  else if 'a' ≤ c ∧ c ≤ 'f' then some (c.toNat - 'a'.toNat + 10)
  else if 'A' ≤ c ∧ c ≤ 'F' then some (c.toNat - 'A'.toNat + 10)
  else none

/-- The number of bytes of a text. -/
def byteCount (text : List Char) : Nat :=
  text.foldr (fun c count => c.utf8Size + count) 0

/-- Reads four hexadecimal digits as a number. -/
def readHex (cursor : Cursor) : Reading Nat :=
  match cursor.rest.take 4 |>.mapM hexValue? with
  | some [a, b, c, d] => .ok (((a * 16 + b) * 16 + c) * 16 + d, cursor.skip 4)
  | _ =>
    let after := cursor.place.afterBytes 4 cursor.rest
    if byteCount (cursor.rest.take 4) < 4 then .error ⟨.endInString, after⟩
    else .error ⟨.badEscape, after⟩

/-- Passes over the character that must come between the two halves of a pair. -/
def readPairSign (sign : Char) (cursor : Cursor) : Except Problem Cursor :=
  match cursor.rest with
  | [] => cursor.failHere .endInString
  | c :: _ => if c = sign then .ok cursor.advance else cursor.failNext .halfSurrogate

/-- Reads what follows `\u`: a character, as one escape or as a pair of surrogates. -/
def readUnicode (cursor : Cursor) : Reading Char :=
  match readHex cursor with
  | .error problem => .error problem
  | .ok (first, after) =>
    if 0xDC00 ≤ first ∧ first ≤ 0xDFFF then after.failHere .loneSurrogate
    else if first < 0xD800 ∨ 0xDBFF < first then .ok (Char.ofNat first, after)
    else
      match readPairSign '\\' after >>= readPairSign 'u' >>= readHex with
      | .error problem => .error problem
      | .ok (second, after) =>
        if second < 0xDC00 ∨ 0xDFFF < second then after.failHere .loneSurrogate
        else .ok (Char.ofNat ((first - 0xD800) * 0x400 + (second - 0xDC00) + 0x10000), after)

/-- Reads one character of a string that does not end here, with its escape if it has one. -/
def readChar (cursor : Cursor) : Reading Char :=
  match cursor.rest with
  | [] => cursor.failHere .endInString
  | '\\' :: rest =>
    let after := cursor.advance
    match rest with
    | [] => after.failHere .endInString
    | 'u' :: _ => readUnicode after.advance
    | letter :: _ =>
      match unescape? letter with
      | some c => .ok (c, after.advance)
      | none => after.failNext .badEscape
  | c :: _ =>
    if c.toNat < 0x20 then cursor.failNext .controlCharacter else .ok (c, cursor.advance)

/-- Reads the characters of a string up to its closing quote. `done` holds those read so far, the
latest first. The bound is greater than the number of characters left. -/
def readTextOnto : Nat → List Char → Cursor → Reading String
  | 0, _, cursor => cursor.failHere .endInString
  | bound + 1, done, cursor =>
    if cursor.rest.head? = some '"' then .ok (String.ofList done.reverse, cursor.advance)
    else
      match readChar cursor with
      | .error problem => .error problem
      | .ok (c, after) => readTextOnto bound (c :: done) after

/-- Reads the rest of a string after its opening quote. The bound is greater than the number of
characters left. -/
def readText (bound : Nat) (cursor : Cursor) : Reading String :=
  readTextOnto bound [] cursor

end LineScript.Json
