import LineScript.Wire.Envelope
import LineScript.Wire

/-!
# Decoding messages

The fields of a message are taken in the order in which they were written, and the first thing
wrong with one of them is reported. A field may appear once; unknown fields are ignored; what is
missing is reported last, in the order of the fields of the message.
-/

namespace LineScript

namespace Json.Value

/-- The value as a text. -/
def asText : Json.Value → Except Mismatch String
  | .string text => .ok text
  | other => .error (.wrongType other.shown "a string")

/-- The value as a list of texts. -/
def asTexts : Json.Value → Except Mismatch (List String)
  | .list items => items.mapM asText
  | other => .error (.wrongType other.shown "a sequence")

/-- The value as a word of 32 bits. -/
def asWord : Json.Value → Except Mismatch UInt32
  | .number (.natural value) =>
    if value < UInt32.size then .ok (UInt32.ofNat value)
    else .error (.wrongValue (Json.Number.natural value).shown "u32")
  | .number (.negative value) => .error (.wrongValue (Json.Number.negative value).shown "u32")
  | other => .error (.wrongType other.shown "u32")

end Json.Value

namespace Fields

/-- Fills a field that must still be empty. -/
def fill {α : Type} (name : String) (field : Option α) (read : Json.Value → Except Mismatch α)
    (value : Json.Value) : Except Mismatch (Option α) :=
  match field with
  | some _ => .error (.duplicateField name)
  | none => (read value).map some

/-- The content of a field that must have been filled. -/
def require {α : Type} (name : String) : Option α → Except Mismatch α
  | some value => .ok value
  | none => .error (.missingField name)

/-- The item of a list at an index, for a message described by `message`. -/
def item {α : Type} (items : List Json.Value) (index : Nat)
    (read : Json.Value → Except Mismatch α) (message : String) : Except Mismatch α :=
  match items[index]? with
  | some value => read value
  | none => .error (.wrongLength index message)

/-- Refuses a list of more than `count` items. -/
def noMore (items : List Json.Value) (count : Nat) : Except Mismatch Unit :=
  if items.length ≤ count then .ok ()
  else
    .error (.wrongLength items.length
      (toString count ++ (if count = 1 then " element" else " elements") ++ " in sequence"))

end Fields

namespace Request

/-- The kinds of request. -/
inductive Kind where
  | run

/-- The requests. -/
def family : Family Kind := ⟨"Request", [("run", .run)]⟩

/-- The description of a request to run in messages about its length. -/
def runShape : String := "struct variant Request::Run with 1 element"

/-- The request with the given fields. -/
def ofFields (_ : Kind) : Fields → Except Mismatch Request
  | .listed items => do
    let text ← Fields.item items 0 Json.Value.asText runShape
    Fields.noMore items 1
    return .run text
  | .named members => do
    let text ← members.foldlM (fun (text : Option String) (key, value) =>
      if key = "sourceText" then Fields.fill key text Json.Value.asText value
      else .ok text) none
    return .run (← Fields.require "sourceText" text)

/-- Decodes a request. -/
def decode (text : String) : Except DecodeError Request :=
  family.decode ofFields text

end Request

namespace Response

/-- The kinds of response. -/
inductive Kind where
  | output | error

/-- The responses. -/
def family : Family Kind := ⟨"Response", [("output", .output), ("error", .error)]⟩

/-- The description of an output in messages about its length. -/
def outputShape : String := "struct variant Response::Output with 1 element"

/-- The description of an error in messages about its length. -/
def errorShape : String := "struct variant Response::Error with 3 elements"

/-- The fields of an error that have been met. -/
structure ErrorDraft where
  message : Option String
  line : Option UInt32
  col : Option UInt32

/-- Takes one member of an error. -/
def ErrorDraft.take (draft : ErrorDraft) (key : String) (value : Json.Value) :
    Except Mismatch ErrorDraft :=
  if key = "message" then
    (Fields.fill key draft.message Json.Value.asText value).map fun message =>
      { draft with message }
  else if key = "line" then
    (Fields.fill key draft.line Json.Value.asWord value).map fun line => { draft with line }
  else if key = "col" then
    (Fields.fill key draft.col Json.Value.asWord value).map fun col => { draft with col }
  else .ok draft

/-- The response with the given fields. -/
def ofFields : Kind → Fields → Except Mismatch Response
  | .output, .listed items => do
    let lines ← Fields.item items 0 Json.Value.asTexts outputShape
    Fields.noMore items 1
    return .output lines
  | .output, .named members => do
    let lines ← members.foldlM (fun (lines : Option (List String)) (key, value) =>
      if key = "lines" then Fields.fill key lines Json.Value.asTexts value
      else .ok lines) none
    return .output (← Fields.require "lines" lines)
  | .error, .listed items => do
    let message ← Fields.item items 0 Json.Value.asText errorShape
    let line ← Fields.item items 1 Json.Value.asWord errorShape
    let col ← Fields.item items 2 Json.Value.asWord errorShape
    Fields.noMore items 3
    return .error message ⟨line, col⟩
  | .error, .named members => do
    let draft ← members.foldlM (fun draft (key, value) => ErrorDraft.take draft key value)
      ⟨none, none, none⟩
    let message ← Fields.require "message" draft.message
    let line ← Fields.require "line" draft.line
    let col ← Fields.require "col" draft.col
    return .error message ⟨line, col⟩

/-- Decodes a response. -/
def decode (text : String) : Except DecodeError Response :=
  family.decode ofFields text

end Response

end LineScript
