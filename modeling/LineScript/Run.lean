import LineScript.Program
import LineScript.Machine

/-!
# Runs

A run takes a source to its outcome: all lines it printed, or the first fault, never both.
Every run starts from a fresh machine, so its outcome depends on nothing but the source, the
configuration and the clock.
-/

namespace LineScript

/-- What a run depends on besides the source. -/
structure Config where
  entry : EntryRule
  limits : Limits
deriving DecidableEq

/-- The whole source may run, within the standard limits. -/
def Config.standard : Config := ⟨.wholeSource, .standard⟩

/-- The result of a run. -/
inductive Outcome where
  | output (lines : List String)
  | fault (fault : Fault)
deriving DecidableEq

namespace Outcome

/-- The outcome of a machine that has stopped, with the fault that stopped it if there is
one. -/
def ofEnd (stopped : Machine × Option Fault) : Outcome :=
  match stopped.2 with
  | none => .output stopped.1.output
  | some reason => .fault reason

end Outcome

/-- Runs a source that has been split into lines. -/
def Source.run (config : Config) (clock : Clock) (source : Source) : Outcome :=
  match Program.ofSource config.entry source with
  | .error reason => .fault reason
  | .ok program => .ofEnd (Machine.runBlock config.limits clock program.body .initial)

/-- Runs a text. -/
def run (config : Config) (clock : Clock) (text : String) : Outcome :=
  (Source.ofText text).run config clock

end LineScript
