import LineScript.Enclosed.Files

/-!
# Enclosed runs

Commands on a host that is only data: a folder of files, an environment, an input, and a clock
that stands still. What a program prints is kept, with its exit status.
-/

namespace LineScript

/-- What a program left behind. -/
structure Exit where
  status : UInt32
  out : String
  err : String
deriving DecidableEq

namespace Enclosure

/-- The host of an enclosure. It keeps what was printed. -/
def host (enclosure : Enclosure) : Host (StateM (String × String)) where
  look name := return enclosure.environment.lookup name
  readFile path := return enclosure.readFile path
  run config text := return LineScript.run config .still text
  serve config := do
    let (sink, reason) := Service.serve config .still enclosure.input .unlimited
    modify fun (out, err) => (out ++ sink.text, err)
    return reason
  print text := modify fun (out, err) => (out ++ text, err)
  complain text := modify fun (out, err) => (out, err ++ text)
  terminal := return false

/-- Carries out a command line. -/
def execute (enclosure : Enclosure) (arguments : List String) : Exit :=
  let (status, out, err) :=
    (Command.execute enclosure.host (.ofArguments arguments)).run ("", "") |>.run
  ⟨status, out, err⟩

/-- Runs the text on the input with the standard configuration: the lines go to the one stream,
a fault in one line to the other. -/
def pipe (input : List UInt8) : Exit :=
  match String.fromUTF8? ⟨input.toArray⟩ with
  | none => ⟨1, "", "Error reading input: " ++ StreamFault.invalidText.message ++ "\n"⟩
  | some text =>
    match run .standard .still text with
    | .output lines => ⟨0, String.join (lines.map (· ++ "\n")), ""⟩
    | .fault reason =>
      ⟨1, "", "error[" ++ reason.code.number ++ "]: " ++ reason.display ++ "\n"⟩

end Enclosure

end LineScript
