import LineScript.Wire.Mismatch

/-!
# Envelopes

A message is an object with the member `kind` and further fields in any order, or a list of
the kind and the fields in a fixed order. The kind is recognised while the text is being read,
wherever in the object it stands, so a wrong kind is reported at its place. The fields are only
looked at when the whole value has been read, and what is wrong with them has no place.
-/

namespace LineScript

/-- The fields of a message that has been read. -/
inductive Fields where
  | named (members : List (String × Json.Value))
  | listed (items : List Json.Value)

/-- The messages of one direction: what they are called, and their kinds by name. -/
structure Family (κ : Type) where
  name : String
  kinds : List (String × κ)

namespace Family

variable {κ : Type}

/-- The result of reading a part of a message. -/
abbrev Result (α : Type) := Except DecodeError (α × Json.Cursor)

/-- Turns a problem of the text into an error of the message. -/
def lift {α : Type} : Except Json.Problem α → Except DecodeError α
  | .ok value => .ok value
  | .error problem => .error (.flaw problem)

/-- Reports a mismatch at a place. -/
def fail {α : Type} (reason : Mismatch) (place : Json.Place) : Except DecodeError α :=
  .error (.mismatch reason (some place))

/-- The name of the member that tells the kind. -/
def kindField : String := "kind"

/-- How many brackets may be open inside a message. -/
def innerDepth : Nat := Json.maxDepth - 1

/-- Reads the kind, which is a string. -/
def readKind (family : Family κ) (bound : Nat) (cursor : Json.Cursor) : Result κ :=
  match cursor.skipSpace with
  | (none, cursor) => lift (cursor.failHere .endInValue)
  | (some '[', cursor) => fail (.wrongType "sequence" "variant identifier") cursor.place
  | (some '{', cursor) => fail (.wrongType "map" "variant identifier") cursor.place
  | (some c, cursor) =>
    match Json.readScalar bound c cursor with
    | .error problem => .error (.flaw problem)
    | .ok (.string text, after) =>
      match family.kinds.lookup text with
      | some kind => .ok (kind, after)
      | none => fail (.unknownKind text (family.kinds.map Prod.fst)) after.place
    | .ok (value, after) => fail (.wrongType value.shown "variant identifier") after.place

/-- Reads the rest of a message in list form after its opening bracket. -/
def readListed (family : Family κ) (bound : Nat) (cursor : Json.Cursor) : Result (κ × Fields) :=
  match Json.nextItem true cursor with
  | .error problem => .error (.flaw problem)
  | .ok (false, cursor) => fail (.missingField kindField) cursor.advance.place
  | .ok (true, cursor) =>
    match family.readKind bound cursor with
    | .error reason => .error reason
    | .ok (kind, cursor) =>
      (lift (Json.readItems (Json.readValue bound innerDepth) bound false [] cursor)).map
        fun (items, behind) => ((kind, .listed items), behind)

/-- The place where a second kind is reported: behind its key, and behind the closing brace if
that comes next. -/
def repeatPlace (cursor : Json.Cursor) : Json.Place :=
  match cursor.skipSpace with
  | (some '}', cursor) => cursor.advance.place
  | (_, cursor) => cursor.place

/-- Reads the rest of a message in object form, of which the kind may be known and the members
`done` have been read, the latest first. -/
def readNamed (family : Family κ) :
    Nat → Bool → Option κ → List (String × Json.Value) → Json.Cursor → Result (κ × Fields)
  | 0, _, _, _, cursor => lift (cursor.failHere .endInObject)
  | bound + 1, first, kind, done, cursor =>
    match Json.nextKey (bound + 1) first cursor with
    | .error problem => .error (.flaw problem)
    | .ok (none, cursor) =>
      match kind with
      | none => fail (.missingField kindField) cursor.advance.place
      | some kind => .ok ((kind, .named done.reverse), cursor.advance)
    | .ok (some key, cursor) =>
      if key = kindField then
        if kind.isSome then fail (.duplicateField kindField) (repeatPlace cursor)
        else
          match lift (Json.readColon cursor) >>= family.readKind (bound + 1) with
          | .error reason => .error reason
          | .ok (found, cursor) => readNamed family bound false (some found) done cursor
      else
        match Json.readColon cursor >>= Json.readValue (bound + 1) innerDepth with
        | .error problem => .error (.flaw problem)
        | .ok (value, cursor) => readNamed family bound false kind ((key, value) :: done) cursor

/-- Reads a message up to its end: its kind and its fields. -/
def readEnvelope (family : Family κ) (bound : Nat) (cursor : Json.Cursor) : Result (κ × Fields) :=
  match cursor.skipSpace with
  | (none, cursor) => lift (cursor.failHere .endInValue)
  | (some '[', cursor) => family.readListed bound cursor.advance
  | (some '{', cursor) => family.readNamed bound true none [] cursor.advance
  | (some c, cursor) =>
    match Json.readScalar bound c cursor with
    | .error problem => .error (.flaw problem)
    | .ok (value, after) =>
      fail (.wrongType value.shown ("internally tagged enum " ++ family.name)) after.place

/-- Decodes a text that must hold one message and nothing else. What is wrong with the fields is
reported before anything that follows the message. -/
def decode {α : Type} (family : Family κ) (ofFields : κ → Fields → Except Mismatch α)
    (text : String) : Except DecodeError α :=
  match family.readEnvelope (text.length + 1) (.start text.toList) with
  | .error reason => .error reason
  | .ok ((kind, fields), cursor) =>
    match ofFields kind fields with
    | .error reason => .error (.mismatch reason none)
    | .ok message =>
      match cursor.skipSpace with
      | (none, _) => .ok message
      | (some _, cursor) => lift (cursor.failNext .trailingCharacters)

end Family

end LineScript
