import LineScript.Fault
import LineScript.Text.Blank

/-!
# Numbered groups of causes

The first digit of a number tells the phase: 0 for the structure of the source, 1 for the form
of a line, 2 for evaluation, 3 for the budget. A user may type a number in any ASCII case and
with blanks around it.
-/

namespace LineScript.Code

/-- Every group, in the order of the numbers. -/
def all : List Code :=
  [.braces, .mainOpen, .mainMissing, .function, .terminator, .form, .undeclared, .overflow, .budget]

/-- The number of a group. -/
def number : Code → String
  | braces => "E0001"
  | mainOpen => "E0002"
  | mainMissing => "E0003"
  | function => "E1001"
  | terminator => "E1002"
  | form => "E1003"
  | undeclared => "E2001"
  | overflow => "E2002"
  | budget => "E3001"

/-- The group whose number a user typed. -/
def ofText? (text : String) : Option Code :=
  let typed := (trim text.toList).map Char.toLower
  all.find? fun code => code.number.toList.map Char.toLower = typed

/-- Whether the group is about the form of a line. -/
def isSyntax : Code → Bool
  | function | terminator | form => true
  | _ => false

/-- What a user is told about a group. -/
def explanation : Code → String
  | braces =>
    "Every `\x7b` must be matched by a later `\x7d`. The error points either at a " ++
    "closing brace with nothing left to close, or at the end of the source " ++
    "when a block was left open."
  | mainOpen =>
    "The `func main() \x7b` header was found but its block never closes. " ++
    "Add the missing `\x7d` after the last statement of `main`."
  | mainMissing =>
    "The run was configured to require an entry point and no " ++
    "`func main() \x7b` header exists. Wrap the program in `func main() \x7b ... \x7d` " ++
    "or run without `--require-main`."
  | function =>
    "Only the `main` entry point may be declared. Programs with several " ++
    "functions are not supported; inline the statements into `main`."
  | terminator =>
    "A statement must end with `;`, and a block header must end with `\x7b`. " ++
    "The error points at the end of the line where the terminator is missing."
  | form =>
    "The line does not match any statement form. Supported statements are " ++
    "`print`, `var`, `x = a + b;`, `while x < N \x7b` and `if x <op> N \x7b`."
  | undeclared =>
    "A variable was read before being declared. Declare it with " ++
    "`var name = value;` before its first use."
  | overflow =>
    "An integer literal or the result of an addition does not fit in a " ++
    "signed 64-bit integer."
  | budget =>
    "The run executed more steps, or ran longer, than its budget allows. " ++
    "This usually means a `while` guard variable is never advanced toward " ++
    "its bound."

theorem mem_all (code : Code) : code ∈ all := by
  cases code <;> decide

end LineScript.Code
