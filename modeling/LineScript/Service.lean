import LineScript.Wire.Decode
import LineScript.Stream
import LineScript.Text.Blank
import LineScript.Text.Cut

/-!
# The service loop

The service reads requests, one on each line, and writes one response for each. The response
depends on the line and the configuration only. Lines of blanks are passed over. A line that is
not UTF-8 ends the service, after the responses to the lines before it.
-/

namespace LineScript.Service

/-- The text that a line asks to run, or the response to a line that asks for nothing. -/
def understand (line : String) : Except Response String :=
  match Request.decode line with
  | .ok (.run text) => .ok text
  | .error reason => .error (.malformed reason.message)

/-- The response to a line. -/
def answer (config : Config) (clock : Clock) (line : String) : Response :=
  match understand line with
  | .ok text => .ofOutcome (run config clock text)
  | .error response => response

/-- Whether a line is passed over. -/
def isIdle (line : String) : Bool :=
  line.toList.all isBlank

/-- The lines of an input. A line ends at a newline, and a carriage return before the newline
belongs to the line ending. What follows the last newline is a line if it is not empty. -/
def inputLines (input : List UInt8) : List (List UInt8) :=
  let cut := cutAt 10 input
  let pieces := cut.1 :: cut.2
  pieces.dropLast.map (fun piece => if piece.getLast? = some 13 then piece.dropLast else piece) ++
    (pieces.getLast?.toList.filter fun piece => !piece.isEmpty)

/-- The text of a line, if its bytes are UTF-8. -/
def textOf? (line : List UInt8) : Option String :=
  String.fromUTF8? ⟨line.toArray⟩

/-- Writes a response and flushes it. -/
def respond (sink : Sink) (response : Response) : Sink × Option StreamFault :=
  match sink.writeLine response.encode with
  | (after, some reason) => (after, some reason)
  | (after, none) => (after, after.flush)

/-- Answers lines until they end or something goes wrong. -/
def serveLines (config : Config) (clock : Clock) (sink : Sink) :
    List (List UInt8) → Sink × Option StreamFault
  | [] => (sink, none)
  | line :: rest =>
    match textOf? line with
    | none => (sink, some .invalidText)
    | some text =>
      if isIdle text then serveLines config clock sink rest
      else
        match respond sink (answer config clock text) with
        | (after, some reason) => (after, some reason)
        | (after, none) => serveLines config clock after rest

/-- Answers all requests of an input. -/
def serve (config : Config) (clock : Clock) (input : List UInt8) (sink : Sink) :
    Sink × Option StreamFault :=
  serveLines config clock sink (inputLines input)

end LineScript.Service
