import LineScript.Wire

/-!
# Runs for a page

An editor in a page runs a text and shows the written response. The page has a single thread,
so the number of steps is what keeps it responsive; a page that asks for zero steps has no
limit.
-/

namespace LineScript.Page

/-- The name and number shown in a page. -/
def versionLine : String := "Cruck 0.1.0"

/-- The written response to a run within the given configuration. -/
def answerWith (config : Config) (text : String) : String :=
  (Response.ofOutcome (run config .still text)).encode

/-- The written response to a run within the standard limits. -/
def answer (text : String) : String :=
  answerWith .standard text

/-- The written response to a run of at most `steps` steps, or of any number if that is zero. -/
def answerWithin (steps : UInt32) (text : String) : String :=
  let limit := if 0 < steps then some steps.toUInt64 else none
  answerWith { Config.standard with limits := { Limits.standard with maxSteps := limit } } text

end LineScript.Page
