/-!
# Comparisons

The six comparisons that the test of a branch may use, on signed words of 64 bits.
-/

namespace LineScript

/-- A comparison of two integers. -/
inductive Comparison where
  | eq | ne | ge | le | gt | lt
deriving DecidableEq

namespace Comparison

/-- Every comparison, in the order in which they are listed to the user. -/
def all : List Comparison := [.eq, .ne, .ge, .le, .gt, .lt]

/-- How the comparison is written in a program. -/
def spelling : Comparison → String
  | eq => "=="
  | ne => "!="
  | ge => ">="
  | le => "<="
  | gt => ">"
  | lt => "<"

/-- Whether the comparison holds between two integers. -/
def holds (op : Comparison) (lhs rhs : Int64) : Bool :=
  match op with
  | eq => lhs == rhs
  | ne => lhs != rhs
  | ge => decide (rhs ≤ lhs)
  | le => decide (lhs ≤ rhs)
  | gt => decide (rhs < lhs)
  | lt => decide (lhs < rhs)

end Comparison

end LineScript
