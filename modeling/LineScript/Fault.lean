import LineScript.Pos

/-!
# Faults

A run ends at its first fault. A fault is a cause and a position; the wording of every cause
is given once, by `Cause.message`, and never contains the position. `Code` groups the causes
under the stable numbers that users can ask to have explained.
-/

namespace LineScript

/-- Why a program was refused or stopped. -/
inductive Cause where
  /-- A closing brace with nothing open to close. -/
  | strayClose
  /-- A block that is still open at the end. -/
  | missingClose
  /-- The block of `main` does not close. -/
  | mainOpen
  /-- There is no `main`, and one is required. -/
  | mainMissing
  /-- A function other than `main`, with its name if it has one. -/
  | functionRefused (name : Option String)
  /-- A line without its terminator, or with bad syntax. -/
  | unterminated
  /-- A line of no known form, blanks at its ends removed. -/
  | unknownForm (text : String)
  /-- A variable that is read before it has a value. -/
  | undeclared (name : String)
  /-- A literal beyond the largest integer. -/
  | literalTooLarge (digits : String)
  /-- A sum that is not a signed 64-bit integer. -/
  | sumOutOfRange (lhs rhs : Int64)
  /-- More steps than allowed. -/
  | stepLimit (limit : UInt64)
  /-- More milliseconds than allowed. -/
  | timeLimit (milliseconds : UInt64)
deriving DecidableEq

/-- The numbered groups of causes. -/
inductive Code where
  | braces | mainOpen | mainMissing | function | terminator | form | undeclared | overflow | budget
deriving DecidableEq

/-- A cause and the place it points at. -/
structure Fault where
  cause : Cause
  pos : Pos
deriving DecidableEq

namespace Cause

/-- The wording of a cause, without a position. -/
def message : Cause → String
  | strayClose => "unexpected closing brace"
  | missingClose => "missing closing brace"
  | mainOpen => "the block of `func main()` is never closed"
  | mainMissing => "no `func main() \x7b` entry point found"
  | functionRefused name =>
    "function" ++ (name.elim "" fun n => " `" ++ n ++ "`") ++
      " is not supported: only `func main()` may be declared"
  | unterminated => "missing semicolon or invalid syntax"
  | unknownForm text => "unknown statement `" ++ text ++ "`"
  | undeclared name => "undeclared variable `" ++ name ++ "`"
  | literalTooLarge digits =>
    "integer overflow: literal `" ++ digits ++ "` does not fit in a 64-bit integer"
  | sumOutOfRange lhs rhs =>
    "integer overflow: `" ++ toString lhs.toInt ++ " + " ++ toString rhs.toInt ++
      "` does not fit in a 64-bit integer"
  | stepLimit limit =>
    "resource limit exceeded: more than " ++ toString limit.toNat ++ " steps executed"
  | timeLimit milliseconds =>
    "resource limit exceeded: run exceeded " ++ toString milliseconds.toNat ++ " ms"

/-- The group of a cause. -/
def code : Cause → Code
  | strayClose | missingClose => .braces
  | mainOpen => .mainOpen
  | mainMissing => .mainMissing
  | functionRefused _ => .function
  | unterminated => .terminator
  | unknownForm _ => .form
  | undeclared _ => .undeclared
  | literalTooLarge _ | sumOutOfRange _ _ => .overflow
  | stepLimit _ | timeLimit _ => .budget

end Cause

namespace Fault

/-- The wording of a fault, without its position. -/
def message (fault : Fault) : String :=
  fault.cause.message

/-- The group of a fault. -/
def code (fault : Fault) : Code :=
  fault.cause.code

/-- The wording of a fault with its position, as people count. -/
def display (fault : Fault) : String :=
  fault.message ++ " at " ++ fault.pos.display

end Fault

end LineScript
