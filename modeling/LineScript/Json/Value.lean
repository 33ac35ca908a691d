import LineScript.Json.Text
import LineScript.Json.Number

/-!
# JSON values

A value is read from left to right and the first problem wins. Members of an object are kept
in their order, repeated keys included. Brackets may be nested to a fixed depth only.

The functions that step through the items of a list or the members of an object take the
reader of one item as an argument, so the nesting depth bounds the recursion of values. The
`bound` that every reader of something of any length takes is greater than the number of
characters left; it is found once, from the whole text.
-/

namespace LineScript.Json

/-- A JSON value. -/
inductive Value where
  | null
  | bool (value : Bool)
  | number (value : Number)
  | string (value : String)
  | list (items : List Value)
  | object (members : List (String × Value))

/-- How many brackets may be open at the same time. -/
def maxDepth : Nat := 127

/-- Passes over the rest of a fixed word. -/
def readWord : List Char → Cursor → Except Problem Cursor
  | [], cursor => .ok cursor
  | expected :: more, cursor =>
    match cursor.rest with
    | [] => cursor.failHere .endInValue
    | c :: _ => if c = expected then readWord more cursor.advance else cursor.failNext .badLiteral

/-- Reads a value that is neither a list nor an object and begins with `c`, at the cursor. -/
def readScalar (bound : Nat) (c : Char) (cursor : Cursor) : Reading Value :=
  let after := cursor.advance
  match c with
  | 'n' => (readWord "ull".toList after).map (Value.null, ·)
  | 't' => (readWord "rue".toList after).map (Value.bool true, ·)
  | 'f' => (readWord "alse".toList after).map (Value.bool false, ·)
  | '-' => (readNumber false after).map fun (n, behind) => (.number n, behind)
  | '"' => (readText bound after).map fun (text, behind) => (.string text, behind)
  | _ =>
    if c.isDigit then (readNumber true cursor).map fun (n, behind) => (.number n, behind)
    else cursor.failNext .noValue

/-- Looks for the next item of a list: the cursor at the item, or at the closing bracket. -/
def nextItem (first : Bool) (cursor : Cursor) : Except Problem (Bool × Cursor) :=
  match cursor.skipSpace with
  | (none, cursor) => cursor.failHere .endInList
  | (some ']', cursor) => .ok (false, cursor)
  | (some c, cursor) =>
    if first then .ok (true, cursor)
    else if c = ',' then
      match cursor.advance.skipSpace with
      | (none, cursor) => cursor.failHere .endInValue
      | (some ']', cursor) => cursor.failNext .trailingComma
      | (some _, cursor) => .ok (true, cursor)
    else cursor.failNext .noCommaOrBracket

/-- Looks for the next member of an object: its key and the cursor behind it, or no key and the
cursor at the closing brace. -/
def nextKey (bound : Nat) (first : Bool) (cursor : Cursor) : Reading (Option String) :=
  match cursor.skipSpace with
  | (none, cursor) => cursor.failHere .endInObject
  | (some '}', cursor) => .ok (none, cursor)
  | (some c, cursor) =>
    if first then
      if c = '"' then key cursor else cursor.failNext .keyNotString
    else if c = ',' then
      match cursor.advance.skipSpace with
      | (none, cursor) => cursor.failHere .endInValue
      | (some '"', cursor) => key cursor
      | (some '}', cursor) => cursor.failNext .trailingComma
      | (some _, cursor) => cursor.failNext .keyNotString
    else cursor.failNext .noCommaOrBrace
where
  /-- Reads a key from its opening quote on. -/
  key (cursor : Cursor) : Reading (Option String) :=
    (readText bound cursor.advance).map fun (text, behind) => (some text, behind)

/-- Passes over the colon between a key and its value. -/
def readColon (cursor : Cursor) : Except Problem Cursor :=
  match cursor.skipSpace with
  | (none, cursor) => cursor.failHere .endInObject
  | (some ':', cursor) => .ok cursor.advance
  | (some _, cursor) => cursor.failNext .noColon

/-- Reads the items of a list up to its closing bracket. -/
def readItems (item : Cursor → Reading Value) :
    Nat → Bool → List Value → Cursor → Reading (List Value)
  | 0, _, _, cursor => cursor.failHere .endInList
  | bound + 1, first, done, cursor =>
    match nextItem first cursor with
    | .error problem => .error problem
    | .ok (false, cursor) => .ok (done.reverse, cursor.advance)
    | .ok (true, cursor) =>
      match item cursor with
      | .error problem => .error problem
      | .ok (value, cursor) => readItems item bound false (value :: done) cursor

/-- Reads the members of an object up to its closing brace. -/
def readMembers (item : Cursor → Reading Value) :
    Nat → Bool → List (String × Value) → Cursor → Reading (List (String × Value))
  | 0, _, _, cursor => cursor.failHere .endInObject
  | bound + 1, first, done, cursor =>
    match nextKey (bound + 1) first cursor with
    | .error problem => .error problem
    | .ok (none, cursor) => .ok (done.reverse, cursor.advance)
    | .ok (some key, cursor) =>
      match readColon cursor >>= item with
      | .error problem => .error problem
      | .ok (value, cursor) => readMembers item bound false ((key, value) :: done) cursor

/-- Reads a value inside which at most `depth` brackets may be open. -/
def readValue (bound depth : Nat) (cursor : Cursor) : Reading Value :=
  match cursor.skipSpace with
  | (none, cursor) => cursor.failHere .endInValue
  | (some c, cursor) =>
    if c = '[' ∨ c = '{' then
      match depth with
      | 0 => cursor.failNext .tooDeep
      | inner + 1 =>
        let after := cursor.advance
        if c = '[' then
          (readItems (readValue bound inner) bound true [] after).map
            fun (items, behind) => (.list items, behind)
        else
          (readMembers (readValue bound inner) bound true [] after).map
            fun (members, behind) => (.object members, behind)
    else readScalar bound c cursor

end LineScript.Json
