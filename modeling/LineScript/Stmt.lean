import LineScript.Comparison
import LineScript.Fault

/-!
# Statements

A program is a list of statements. Each remembers the line it starts on. Most of them are
an `Action` of one line; a loop and the two kinds of branch own blocks of statements.
A line of no valid form is a statement too: its fault is raised when it is executed, not
before.
-/

namespace LineScript

/-- A variable where it is used. -/
structure VarRef where
  name : String
  pos : Pos
deriving DecidableEq

/-- A value in a statement: an integer, or a variable that is read when it is needed. -/
inductive Operand where
  | literal (value : Int64) (pos : Pos)
  | var (ref : VarRef)
deriving DecidableEq

/-- A statement of one line. -/
inductive Action where
  | blank
  | comment
  /-- Prints a text. -/
  | printText (text : String)
  /-- Prints a text with the digits of a value after it. -/
  | printValue (text : String) (value : Operand)
  /-- Gives a variable a value. -/
  | declare (name : String) (value : Operand)
  /-- Gives a variable the sum of two values. -/
  | assign (dest : VarRef) (lhs rhs : Operand)
  /-- Raises a fault. -/
  | invalid (fault : Fault)
deriving DecidableEq

/-- The test of a branch. -/
structure Test where
  guard : VarRef
  op : Comparison
  literal : Int64
deriving DecidableEq

/-- A statement with the line it starts on. -/
inductive Stmt where
  | action (line : UInt32) (action : Action)
  /-- Repeats the body while the guard is below the bound. -/
  | loop (line : UInt32) (guard : VarRef) (bound : Int64) (body : List Stmt)
  /-- Executes the block if the test holds. -/
  | branch (line : UInt32) (test : Test) (block : List Stmt)
  /-- Executes one of two blocks. -/
  | choice (line : UInt32) (test : Test) (block other : List Stmt)

namespace Stmt

/-- The line a statement starts on. -/
def line : Stmt → UInt32
  | action line _ | loop line _ _ _ | branch line _ _ | choice line _ _ _ => line

/-- The position of a statement: the start of its line. -/
def pos (stmt : Stmt) : Pos :=
  ⟨stmt.line, 0⟩

/-- A statement of one line, on the line with the given index. -/
def onLine (index : Nat) (action : Action) : Stmt :=
  .action (UInt32.ofNatClamp index) action

end Stmt

end LineScript
