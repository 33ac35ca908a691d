import LineScript.Run
import LineScript.Stream
import LineScript.Diagnostic.Render

/-!
# Reports

The outcome of a run is reported on two streams: its lines on one, or the diagnostic of its
fault on the other. The first stream is neither written nor flushed when there is a fault.
-/

namespace LineScript

/-- A report as it has been made: the stream of the lines, the text of the other stream, and
whether the run succeeded, or why the lines could not be written. -/
structure Report where
  out : Sink
  err : String
  result : Except StreamFault Bool

/-- Reports the outcome of running a text that was read from `path`. -/
def Outcome.report (outcome : Outcome) (text path : String) (colored : Bool) (out : Sink) :
    Report :=
  match outcome with
  | .output lines =>
    match out.writeLines lines with
    | (out, some reason) => ⟨out, "", .error reason⟩
    | (out, none) =>
      match out.flush with
      | some reason => ⟨out, "", .error reason⟩
      | none => ⟨out, "", .ok true⟩
  | .fault reason =>
    let shown := Diagnostic.render colored (some (.ofText text)) (some path) [reason.diagnostic]
    ⟨out, shown, .ok false⟩

end LineScript
