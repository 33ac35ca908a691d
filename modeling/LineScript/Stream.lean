/-!
# Output streams

A sink takes pieces of text and may refuse them: after a given number of lines, as a pipe does
whose reader has gone away, or only when it is flushed. A refused piece leaves the sink as it
was. The empty piece is never refused, because nothing has to be written for it.
-/

namespace LineScript

/-- Why a stream could not be used. -/
inductive StreamFault where
  | brokenPipe
  | invalidText
deriving DecidableEq

/-- The wording of a stream fault. -/
def StreamFault.message : StreamFault → String
  | brokenPipe => "broken pipe"
  | invalidText => "stream did not contain valid UTF-8"

/-- A stream and what it has taken so far. -/
structure Sink where
  text : String
  /-- The number of line ends in the text. -/
  lines : Nat
  /-- After how many line ends nothing more is taken, if there is such a number. -/
  capacity : Option Nat
  refusesFlush : Bool
deriving DecidableEq

namespace Sink

/-- An empty sink. -/
def empty (capacity : Option Nat) (refusesFlush : Bool) : Sink :=
  ⟨"", 0, capacity, refusesFlush⟩

/-- An empty sink that takes everything. -/
def unlimited : Sink := empty none false

/-- Whether the sink has taken all the lines it takes. -/
def isFull (sink : Sink) : Bool :=
  sink.capacity.any fun limit => limit ≤ sink.lines

/-- Writes a piece of text. -/
def write (sink : Sink) (piece : String) : Sink × Option StreamFault :=
  if piece.isEmpty then (sink, none)
  else if sink.isFull then (sink, some .brokenPipe)
  else
    ({ sink with
      text := sink.text ++ piece
      lines := sink.lines + piece.toList.count '\n' }, none)

/-- Writes a line in two pieces, its text and its end. What could be written stays written. -/
def writeLine (sink : Sink) (line : String) : Sink × Option StreamFault :=
  match sink.write line with
  | (after, some fault) => (after, some fault)
  | (after, none) => after.write "\n"

/-- Writes lines up to the first that is refused. -/
def writeLines (sink : Sink) : List String → Sink × Option StreamFault
  | [] => (sink, none)
  | line :: rest =>
    match sink.writeLine line with
    | (after, some fault) => (after, some fault)
    | (after, none) => after.writeLines rest

/-- Asks the sink to pass on what it has taken. -/
def flush (sink : Sink) : Option StreamFault :=
  if sink.refusesFlush then some .brokenPipe else none

end Sink

end LineScript
