import LineScript.Fault

/-!
# Budgets

A run is charged one step for each statement it executes and for each test of a loop's guard.
The charge comes before the effect. A step beyond the allowed number ends the run. The clock
is looked at after every 1024 steps only, and a run whose time is up then ends too.
-/

namespace LineScript

/-- What a run may use; `none` stands for no limit. -/
structure Limits where
  maxSteps : Option UInt64
  timeoutMs : Option UInt64
deriving DecidableEq

/-- Ten million steps and any amount of time. -/
def Limits.standard : Limits := ⟨some 10000000, none⟩

/-- The milliseconds that have passed when so many steps have been taken. -/
abbrev Clock := Nat → Nat

/-- The clock of a run that takes no time. -/
def Clock.still : Clock := fun _ => 0

namespace Meter

/-- The largest count of steps, at which counting stops. -/
def maxCount : Nat := UInt64.size - 1

/-- How many steps lie between two looks at the clock. -/
def clockInterval : Nat := 1024

/-- The count after one more step. -/
def next (steps : Nat) : Nat :=
  min (steps + 1) maxCount

/-- What forbids a run to go on when it has taken `steps` steps, the last one included. -/
def refusal (limits : Limits) (clock : Clock) (steps : Nat) : Option Cause :=
  match limits.maxSteps with
  | some limit => if limit.toNat < steps then some (.stepLimit limit) else timeUp
  | none => timeUp
where
  /-- Whether the time is up, if this is a step after which the clock is looked at. -/
  timeUp : Option Cause :=
    match limits.timeoutMs with
    | some timeout =>
      if steps % clockInterval = 0 ∧ timeout.toNat ≤ clock steps then some (.timeLimit timeout)
      else none
    | none => none

/-- Charges one step at a position to a run that has taken `steps` steps: the new count, and
the fault if the run must end. -/
def charge (limits : Limits) (clock : Clock) (pos : Pos) (steps : Nat) : Nat × Option Fault :=
  let count := next steps
  (count, (refusal limits clock count).map fun cause => ⟨cause, pos⟩)

/-- Charges the same position `times` times and stops at the first fault. -/
def chargeMany (limits : Limits) (clock : Clock) (pos : Pos) : Nat → Nat → Nat × Option Fault
  | 0, steps => (steps, none)
  | times + 1, steps =>
    match charge limits clock pos steps with
    | (count, some fault) => (count, some fault)
    | (count, none) => chargeMany limits clock pos times count

end Meter

end LineScript
