import LineScript.Json.Text
import LineScript.Run

/-!
# Messages

A host sends requests and gets responses, each of them one line of JSON. Positions in responses
count from zero. A response is written compactly, and since quoting leaves no control character
in a text, a written response never contains a line break.
-/

namespace LineScript

/-- What a host asks for. -/
inductive Request where
  | run (text : String)
deriving DecidableEq

/-- What a host is told. -/
inductive Response where
  | output (lines : List String)
  | error (message : String) (pos : Pos)
deriving DecidableEq

namespace Request

/-- The written form of a request. -/
def encode : Request → String
  | run text => "\x7b\"kind\":\"run\",\"sourceText\":" ++ Json.quote text ++ "\x7d"

end Request

namespace Response

/-- The written form of a response. -/
def encode : Response → String
  | output lines =>
    "\x7b\"kind\":\"output\",\"lines\":[" ++ ",".intercalate (lines.map Json.quote) ++ "]\x7d"
  | error message pos =>
    "\x7b\"kind\":\"error\",\"message\":" ++ Json.quote message ++ ",\"line\":" ++
      toString pos.line.toNat ++ ",\"col\":" ++ toString pos.col.toNat ++ "\x7d"

/-- Whether a response is an error. -/
def isError : Response → Bool
  | output _ => false
  | error _ _ => true

/-- The response to a request that could not be understood. -/
def malformed (reason : String) : Response :=
  .error ("malformed request: " ++ reason) .start

/-- The response that reports a fault. -/
def ofFault (fault : Fault) : Response :=
  .error fault.message fault.pos

/-- The response that reports the outcome of a run. -/
def ofOutcome : Outcome → Response
  | .output lines => .output lines
  | .fault reason => .ofFault reason

end Response

end LineScript
