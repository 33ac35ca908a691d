import LineScript.Fault.Code

/-!
# Diagnostics

A diagnostic is what is shown for a problem: a severity, a numbered group, a message, marked
positions, notes and hints. `Fault.diagnostic` says how each fault is presented.
-/

namespace LineScript

/-- How serious a diagnostic is. -/
inductive Severity where
  | error | warning | note | help
deriving DecidableEq

/-- The word for a severity. -/
def Severity.word : Severity → String
  | error => "error"
  | warning => "warning"
  | note => "note"
  | help => "help"

/-- A position with a remark. The primary marks show where the problem is, the others give
context. -/
structure Mark where
  pos : Pos
  remark : String
  primary : Bool
deriving DecidableEq

/-- A problem ready to be shown. -/
structure Diagnostic where
  code : Code
  severity : Severity
  message : String
  marks : List Mark
  notes : List String
  hints : List String
deriving DecidableEq

namespace Diagnostic

/-- The position of the first primary mark. -/
def primary? (diagnostic : Diagnostic) : Option Pos :=
  (diagnostic.marks.find? Mark.primary).map Mark.pos

/-- Whether the diagnostic is an error rather than a lesser remark. -/
def isError (diagnostic : Diagnostic) : Bool :=
  diagnostic.severity = .error

/-- The plain form: a heading and one further row for each mark, note and hint. -/
def summary (diagnostic : Diagnostic) : String :=
  diagnostic.severity.word ++ " [" ++ diagnostic.code.number ++ "]: " ++ diagnostic.message ++
    String.join (diagnostic.marks.map fun mark =>
      "\n  " ++ (if mark.primary then "-->" else "   ") ++ " " ++ mark.pos.display ++ ": " ++
        mark.remark) ++
    String.join (diagnostic.notes.map fun note => "\n  = note: " ++ note) ++
    String.join (diagnostic.hints.map fun hint => "\n  = help: " ++ hint)

end Diagnostic

namespace Cause

/-- The remark under the marked column. -/
def remark : Cause → String
  | strayClose => "nothing to close here"
  | missingClose => "expected `\x7d` before here"
  | mainOpen => "this block is never closed"
  | mainMissing => "expected `func main() \x7b`"
  | functionRefused _ => "function declared here"
  | unterminated => "expected `;`"
  | unknownForm _ => "not a statement"
  | undeclared _ => "not declared"
  | literalTooLarge _ | sumOutOfRange _ _ => "overflows here"
  | stepLimit _ | timeLimit _ => "budget ran out here"

/-- Background for the reader. -/
def notes : Cause → List String
  | stepLimit _ => ["a `while` guard that is never advanced loops forever"]
  | _ => []

/-- What the reader may do about it. -/
def hints : Cause → List String
  | undeclared name => ["declare it first: `var " ++ name ++ " = 0;`"]
  | stepLimit _ => ["raise the budget with `--max-steps=N` if the program is correct"]
  | unterminated => ["add `;` at the end of the line"]
  | _ => []

end Cause

/-- How a fault is shown: one primary mark at its position. -/
def Fault.diagnostic (fault : Fault) : Diagnostic where
  code := fault.code
  severity := .error
  message := fault.message
  marks := [⟨fault.pos, fault.cause.remark, true⟩]
  notes := fault.cause.notes
  hints := fault.cause.hints

end LineScript
