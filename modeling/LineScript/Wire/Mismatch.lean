import LineScript.Json.Value
import LineScript.Decimal.Double
import LineScript.Text.Quoted

/-!
# Why a value is not a message

A JSON text may be well formed and still not be a message. Each way in which it can differ is a
`Mismatch`; its wording names what was found and what was expected.
-/

namespace LineScript

/-- What a value is called in a message about it. -/
def Json.Number.shown : Json.Number → String
  | .natural value => "integer `" ++ toString value ++ "`"
  | .negative value => "integer `-" ++ toString value ++ "`"
  | .double value => "floating point `" ++ Double.text value ++ "`"

/-- What a value is called in a message about it. -/
def Json.Value.shown : Json.Value → String
  | .null => "null"
  | .bool value => "boolean `" ++ (if value then "true" else "false") ++ "`"
  | .number value => value.shown
  | .string value => "string " ++ quotedText value
  | .list _ => "sequence"
  | .object _ => "map"

/-- A difference between a JSON value and the message that was expected. -/
inductive Mismatch where
  /-- A value of the wrong type, by the name it is called. -/
  | wrongType (found expected : String)
  /-- An integer out of range. -/
  | wrongValue (found expected : String)
  /-- A message of no known kind. -/
  | unknownKind (found : String) (known : List String)
  | duplicateField (name : String)
  | missingField (name : String)
  /-- A list with the wrong number of items. -/
  | wrongLength (found : Nat) (expected : String)
deriving DecidableEq

/-- The wording of a mismatch, without its place. -/
def Mismatch.message : Mismatch → String
  | wrongType found expected => "invalid type: " ++ found ++ ", expected " ++ expected
  | wrongValue found expected => "invalid value: " ++ found ++ ", expected " ++ expected
  | unknownKind found known =>
    "unknown variant `" ++ found ++ "`, expected " ++
      " or ".intercalate (known.map fun kind => "`" ++ kind ++ "`")
  | duplicateField name => "duplicate field `" ++ name ++ "`"
  | missingField name => "missing field `" ++ name ++ "`"
  | wrongLength found expected =>
    "invalid length " ++ toString found ++ ", expected " ++ expected

/-- Why a text could not be decoded. A mismatch that is found while the text is still being
read has a place. -/
inductive DecodeError where
  | flaw (problem : Json.Problem)
  | mismatch (reason : Mismatch) (place : Option Json.Place)
deriving DecidableEq

/-- The wording of a place, to follow that of an error. -/
def Json.Place.shown (place : Json.Place) : String :=
  " at line " ++ toString place.line ++ " column " ++ toString place.column

/-- The wording of an error. -/
def DecodeError.message : DecodeError → String
  | flaw problem => problem.flaw.message ++ problem.place.shown
  | mismatch reason place => reason.message ++ place.elim "" Json.Place.shown

end LineScript
