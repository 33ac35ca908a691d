import LineScript.Command

/-!
# The program

The command line on the system: its files, environment and streams, and its clock. A run with a
time limit is executed in portions, and the clock is looked at before each of them.
-/

namespace LineScript.Main

/-- Goes on with a run that began at the time `began`. -/
partial def runTimed (limits : Limits) (began : Nat) (tasks : List Task) (machine : Machine) :
    IO Outcome := do
  let passed := (← IO.monoMsNow) - began
  match Machine.exec limits (fun _ => passed) Meter.clockInterval tasks machine with
  | (after, .finished) => return .ofEnd (after, none)
  | (after, .failed reason) => return .ofEnd (after, some reason)
  | (after, .paused left) => runTimed limits began left after

/-- Runs a text on the clock of the system. -/
def run (config : Config) (text : String) : IO Outcome := do
  match Program.ofSource config.entry (.ofText text) with
  | .error reason => return .fault reason
  | .ok program =>
    runTimed config.limits (← IO.monoMsNow) (Task.ofBlock program.body) .initial

/-- Answers one line of the input. -/
def serveLine (config : Config) (line : List UInt8) : IO (Option StreamFault) := do
  match Service.textOf? line with
  | none => return some .invalidText
  | some text =>
    unless Service.isIdle text do
      let response ←
        match Service.understand text with
        | .error response => pure response
        | .ok source => pure (Response.ofOutcome (← run config source))
      let stdout ← IO.getStdout
      stdout.putStrLn response.encode
      stdout.flush
    return none

/-- Answers the complete lines of what has been read. -/
def serveLines (config : Config) : List (List UInt8) → IO (Option StreamFault)
  | [] => return none
  | line :: rest => do
    match ← serveLine config line with
    | some reason => return some reason
    | none => serveLines config rest

/-- Answers lines until the input ends. The bytes after the last newline are kept for later. -/
partial def serve (config : Config) (kept : ByteArray) : IO (Option StreamFault) := do
  let chunk ← (← IO.getStdin).read 65536
  if chunk.isEmpty then serveLines config (Service.inputLines kept.toList)
  else
    let cut := cutAt 10 (kept ++ chunk).toList
    let pieces := cut.1 :: cut.2
    match ← serveLines config (Service.inputLines ((pieces.dropLast.map (· ++ [10])).flatten)) with
    | some reason => return some reason
    | none => serve config ⟨(pieces.getLast?.getD []).toArray⟩

/-- Reads a file as a text. -/
def readFile (path : String) : IO (Except ReadError String) := do
  try
    let bytes ← IO.FS.readBinFile path
    return match String.fromUTF8? bytes with
      | some text => .ok text
      | none => .error .invalidText
  catch
    | .noFileOrDirectory .. => return .error .notFound
    | .permissionDenied .. => return .error .denied
    | reason => return .error (.other (toString reason))

/-- The host that is the system. -/
def host : Host IO where
  look name := IO.getEnv name
  readFile := readFile
  run := run
  serve config := serve config .empty
  print text := do
    let stdout ← IO.getStdout
    stdout.putStr text
    stdout.flush
  complain text := do (← IO.getStderr).putStr text
  terminal := do (← IO.getStderr).isTty

end LineScript.Main

/-- Carries out the command line. -/
def main (arguments : List String) : IO UInt32 :=
  LineScript.Command.execute LineScript.Main.host (.ofArguments arguments)
