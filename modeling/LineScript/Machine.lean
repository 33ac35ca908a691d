import LineScript.Store
import LineScript.Meter

/-!
# Execution

A machine executes a list of tasks. A task is a statement, or the test of a loop that has
begun, and each task is charged exactly one step. Doing a task changes the machine and gives
the tasks to do next, before the rest: a loop gives its test, a test gives the body and the
test again, a branch gives one of its blocks.

`exec` runs at most as many tasks as its fuel allows. It ends when no task is left, at the
first fault, or when the fuel is used up, and in each case the machine is returned as it is
then: a fault takes nothing back.
-/

namespace LineScript

/-- The state of a run: its variables, the lines printed so far, the latest first, and the steps
charged. -/
structure Machine where
  store : Store
  printed : List String
  steps : Nat

/-- A piece of work that is charged one step. -/
inductive Task where
  | stmt (stmt : Stmt)
  /-- The test of the loop on a line. -/
  | test (line : UInt32) (guard : VarRef) (bound : Int64) (body : List Stmt)

/-- Where a task is charged: the start of its line. -/
def Task.pos : Task → Pos
  | .stmt whole => whole.pos
  | .test line _ _ _ => ⟨line, 0⟩

/-- The tasks of a block. -/
def Task.ofBlock (stmts : List Stmt) : List Task :=
  stmts.map .stmt

/-- The sum of two integers, if it is one. -/
def addChecked (lhs rhs : Int64) : Option Int64 :=
  let sum := lhs.toInt + rhs.toInt
  if Int64.minValue.toInt ≤ sum ∧ sum ≤ Int64.maxValue.toInt then some (Int64.ofInt sum) else none

namespace Machine

/-- A machine that has done nothing yet. -/
def initial : Machine := ⟨.empty, [], 0⟩

/-- The lines printed so far, in order. -/
def output (machine : Machine) : List String :=
  machine.printed.reverse

/-- Prints a line. -/
def print (machine : Machine) (line : String) : Machine :=
  { machine with printed := line :: machine.printed }

@[simp] theorem output_print (machine : Machine) (line : String) :
    (machine.print line).output = machine.output ++ [line] := by
  simp [print, output]

/-- Gives a variable a value. -/
def set (machine : Machine) (name : String) (value : Int64) : Machine :=
  { machine with store := machine.store.set name value }

/-- The effect of a statement of one line. -/
def act (machine : Machine) : Action → Except Fault Machine
  | .blank | .comment => .ok machine
  | .printText text => .ok (machine.print text)
  | .printValue text value =>
    match machine.store.eval value with
    | .error fault => .error fault
    | .ok number => .ok (machine.print (text ++ toString number.toInt))
  | .declare name value =>
    match machine.store.eval value with
    | .error fault => .error fault
    | .ok number => .ok (machine.set name number)
  | .assign dest lhs rhs =>
    match machine.store.eval lhs with
    | .error fault => .error fault
    | .ok left =>
      match machine.store.eval rhs with
      | .error fault => .error fault
      | .ok right =>
        match addChecked left right with
        | some sum => .ok (machine.set dest.name sum)
        | none => .error ⟨.sumOutOfRange left right, dest.pos⟩
  | .invalid fault => .error fault

/-- Whether a test holds. -/
def holds (machine : Machine) (test : Test) : Except Fault Bool :=
  (machine.store.read test.guard).map fun value => test.op.holds value test.literal

/-- The effect of a task that has been charged: the machine after it and the tasks to do
before all others, or the fault that stopped it, which leaves the machine as it was. -/
def perform (machine : Machine) : Task → Except Fault (Machine × List Task)
  | .stmt (.action _ action) => (machine.act action).map fun after => (after, [])
  | .stmt (.loop line guard bound body) => .ok (machine, [.test line guard bound body])
  | .stmt (.branch _ test block) =>
    (machine.holds test).map fun yes => (machine, if yes then Task.ofBlock block else [])
  | .stmt (.choice _ test block other) =>
    (machine.holds test).map fun yes => (machine, Task.ofBlock (if yes then block else other))
  | .test line guard bound body =>
    (machine.store.read guard).map fun value =>
      (machine,
        if value < bound then Task.ofBlock body ++ [.test line guard bound body] else [])

/-- One task: the charge, then the effect. -/
def step (limits : Limits) (clock : Clock) (machine : Machine) (task : Task) :
    Machine × Except Fault (List Task) :=
  match Meter.charge limits clock task.pos machine.steps with
  | (steps, some fault) => ({ machine with steps }, .error fault)
  | (steps, none) =>
    let charged := { machine with steps }
    match charged.perform task with
    | .ok (after, tasks) => (after, .ok tasks)
    | .error fault => (charged, .error fault)

/-- How a run of tasks ended. -/
inductive Ending where
  | finished
  | failed (fault : Fault)
  /-- The fuel was used up with these tasks left. -/
  | paused (tasks : List Task)

/-- Does tasks in order until none is left, one fails, or the fuel is used up. -/
def exec (limits : Limits) (clock : Clock) : Nat → List Task → Machine → Machine × Ending
  | _, [], machine => (machine, .finished)
  | 0, tasks, machine => (machine, .paused tasks)
  | fuel + 1, task :: rest, machine =>
    match machine.step limits clock task with
    | (after, .error fault) => (after, .failed fault)
    | (after, .ok tasks) => exec limits clock fuel (tasks ++ rest) after

/-- Fuel that lasts until the steps are used up: one task more than are still allowed, where
without a limit as many are allowed as can be counted. -/
def fuelFor (limits : Limits) (steps : Nat) : Nat :=
  (limits.maxSteps.elim Meter.maxCount UInt64.toNat - steps) + 1

/-- Does tasks in order until none is left or one fails. A run without a limit that is still
going when all countable steps are used up is stopped there. -/
def runTasks (limits : Limits) (clock : Clock) (tasks : List Task) (machine : Machine) :
    Machine × Option Fault :=
  match exec limits clock (fuelFor limits machine.steps) tasks machine with
  | (after, .finished) => (after, none)
  | (after, .failed fault) => (after, some fault)
  | (after, .paused left) =>
    (after, left.head?.map fun task => ⟨.stepLimit (UInt64.ofNat Meter.maxCount), task.pos⟩)

/-- Executes a block. -/
def runBlock (limits : Limits) (clock : Clock) (stmts : List Stmt) (machine : Machine) :
    Machine × Option Fault :=
  runTasks limits clock (Task.ofBlock stmts) machine

/-- Executes one statement. -/
def runStmt (limits : Limits) (clock : Clock) (stmt : Stmt) (machine : Machine) :
    Machine × Option Fault :=
  runTasks limits clock [.stmt stmt] machine

end Machine

end LineScript
