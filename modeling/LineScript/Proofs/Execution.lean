import LineScript.Run

/-!
# Executions without fuel

`Machine.exec` is a function because it is given fuel. `Machine.Execution` says without fuel what
it computes: a finite sequence of steps that ends because no task is left or because a task has
failed. The tasks that were charged are kept in order, so their number is the number of charges,
also where the count of the machine itself has stopped.

An execution is determined by where it begins. `exec` finds it as soon as the fuel is not less
than the number of charges, and an `exec` that is not paused has found one.
-/

namespace LineScript

/-- The line a task is charged on. -/
def Task.line : Task → UInt32
  | .stmt whole => whole.line
  | .test line _ _ _ => line

/-- Every charge is made at the start of a line. -/
theorem Task.pos_eq (task : Task) : task.pos = ⟨task.line, 0⟩ := by
  cases task <;> rfl

/-- The values that a statement of one line uses. -/
def Action.operands : Action → List Operand
  | .printValue _ value | .declare _ value => [value]
  | .assign _ lhs rhs => [lhs, rhs]
  | .blank | .comment | .printText _ | .invalid _ => []

/-- A sum that is given is exact. -/
theorem addChecked_eq_some {lhs rhs sum : Int64} (h : addChecked lhs rhs = some sum) :
    sum.toInt = lhs.toInt + rhs.toInt := by
  unfold addChecked at h
  dsimp only at h
  split at h
  · next range =>
    cases h
    have least : Int64.minValue.toInt = -9223372036854775808 := by decide
    have largest : Int64.maxValue.toInt = 9223372036854775807 := by decide
    exact Int64.toInt_ofInt_of_le (by omega) (by omega)
  · cases h

/-- A sum that a word can hold is given. -/
theorem exists_addChecked {lhs rhs : Int64} (least : Int64.minValue.toInt ≤ lhs.toInt + rhs.toInt)
    (largest : lhs.toInt + rhs.toInt ≤ Int64.maxValue.toInt) :
    ∃ sum, addChecked lhs rhs = some sum ∧ sum.toInt = lhs.toInt + rhs.toInt := by
  have given : addChecked lhs rhs = some (Int64.ofInt (lhs.toInt + rhs.toInt)) := by
    simp only [addChecked, if_pos (And.intro least largest)]
  exact ⟨_, given, addChecked_eq_some given⟩

/-- A step is refused only because of the budget. -/
theorem Meter.code_of_refusal {limits : Limits} {clock : Clock} {steps : Nat} {cause : Cause}
    (h : refusal limits clock steps = some cause) : cause.code = .budget := by
  have time (late : refusal.timeUp limits clock steps = some cause) : cause.code = .budget := by
    unfold refusal.timeUp at late
    split at late
    · split at late
      · cases late
        rfl
      · cases late
    · cases late
  unfold refusal at h
  split at h
  · split at h
    · cases h
      rfl
    · exact time h
  · exact time h

namespace Machine

/-- The machine after one more step has been counted. -/
def tick (machine : Machine) : Machine :=
  { machine with steps := Meter.next machine.steps }

@[simp] theorem tick_store (machine : Machine) : machine.tick.store = machine.store := rfl

@[simp] theorem tick_printed (machine : Machine) : machine.tick.printed = machine.printed := rfl

@[simp] theorem tick_steps (machine : Machine) :
    machine.tick.steps = Meter.next machine.steps := rfl

/-- The effect of a task that may be done. A task that fails leaves the machine as it was. -/
def attempt (machine : Machine) (task : Task) : Machine × Except Fault (List Task) :=
  match machine.perform task with
  | .ok (after, tasks) => (after, .ok tasks)
  | .error fault => (machine, .error fault)

section Step

variable {limits : Limits} {clock : Clock} {machine after : Machine} {task : Task}

theorem step_of_refusal {cause : Cause}
    (refused : Meter.refusal limits clock (Meter.next machine.steps) = some cause) :
    machine.step limits clock task = (machine.tick, .error ⟨cause, task.pos⟩) := by
  simp [step, Meter.charge, refused, tick]

theorem step_of_allowed
    (allowed : Meter.refusal limits clock (Meter.next machine.steps) = none) :
    machine.step limits clock task = machine.tick.attempt task := by
  simp only [step, Meter.charge, allowed, Option.map_none]
  rfl

theorem attempt_eq_ok {tasks : List Task} (h : machine.attempt task = (after, .ok tasks)) :
    machine.perform task = .ok (after, tasks) := by
  unfold attempt at h
  split at h <;> simp_all

theorem attempt_eq_error {fault : Fault} (h : machine.attempt task = (after, .error fault)) :
    after = machine := by
  unfold attempt at h
  split at h <;> simp_all

/-- All that a statement of one line can do, with the values it takes from the variables. -/
inductive Acts (machine : Machine) : Action → Machine → Prop
  | blank : Acts machine .blank machine
  | comment : Acts machine .comment machine
  | printText (text) : Acts machine (.printText text) (machine.print text)
  | printValue (text) {value number} (found : machine.store.eval value = .ok number) :
      Acts machine (.printValue text value) (machine.print (text ++ toString number.toInt))
  | declare (name) {value number} (found : machine.store.eval value = .ok number) :
      Acts machine (.declare name value) (machine.set name number)
  | assign (dest) {lhs rhs left right sum} (foundLeft : machine.store.eval lhs = .ok left)
      (foundRight : machine.store.eval rhs = .ok right) (added : addChecked left right = some sum) :
      Acts machine (.assign dest lhs rhs) (machine.set dest.name sum)

/-- All the ways in which it can fail: a value that it uses is missing, or the sum is out of range,
or it carries a fault. -/
inductive ActFails (machine : Machine) : Action → Fault → Prop
  | missing {action operand fault} (used : operand ∈ action.operands)
      (unread : machine.store.eval operand = .error fault) : ActFails machine action fault
  | sum (dest) {lhs rhs left right} (foundLeft : machine.store.eval lhs = .ok left)
      (foundRight : machine.store.eval rhs = .ok right) (outside : addChecked left right = none) :
      ActFails machine (.assign dest lhs rhs) ⟨.sumOutOfRange left right, dest.pos⟩
  | invalid (fault) : ActFails machine (.invalid fault) fault

theorem acts_of_act {action : Action} (acted : machine.act action = .ok after) :
    machine.Acts action after := by
  cases action with
  | blank =>
      cases acted
      exact .blank
  | comment =>
      cases acted
      exact .comment
  | printText text =>
      cases acted
      exact .printText text
  | printValue text value =>
      simp only [act] at acted
      split at acted
      · cases acted
      · next number found =>
        cases acted
        exact .printValue text found
  | declare name value =>
      simp only [act] at acted
      split at acted
      · cases acted
      · next number found =>
        cases acted
        exact .declare name found
  | assign dest lhs rhs =>
      simp only [act] at acted
      split at acted
      · cases acted
      · next left foundLeft =>
        split at acted
        · cases acted
        · next right foundRight =>
          split at acted
          · next sum added =>
            cases acted
            exact .assign dest foundLeft foundRight added
          · cases acted
  | invalid fault => cases acted

theorem actFails_of_act {action : Action} {fault : Fault}
    (failed : machine.act action = .error fault) : machine.ActFails action fault := by
  cases action with
  | blank => cases failed
  | comment => cases failed
  | printText text => cases failed
  | printValue text value =>
      simp only [act] at failed
      split at failed
      · next unread =>
        cases failed
        exact .missing List.mem_cons_self unread
      · cases failed
  | declare name value =>
      simp only [act] at failed
      split at failed
      · next unread =>
        cases failed
        exact .missing List.mem_cons_self unread
      · cases failed
  | assign dest lhs rhs =>
      simp only [act] at failed
      split at failed
      · next unread =>
        cases failed
        exact .missing List.mem_cons_self unread
      · next left foundLeft =>
        split at failed
        · next unread =>
          cases failed
          exact .missing (List.mem_cons_of_mem _ List.mem_cons_self) unread
        · next right foundRight =>
          split at failed
          · cases failed
          · next outside =>
            cases failed
            exact .sum dest foundLeft foundRight outside
  | invalid fault =>
      cases failed
      exact .invalid fault

/-- A statement of one line changes nothing, prints one line or gives one variable a value. -/
theorem Acts.cases {action : Action} (acts : machine.Acts action after) :
    after = machine ∨ (∃ line, after = machine.print line) ∨
      ∃ name value, after = machine.set name value := by
  cases acts with
  | blank => exact .inl rfl
  | comment => exact .inl rfl
  | printText text => exact .inr (.inl ⟨text, rfl⟩)
  | printValue text found => exact .inr (.inl ⟨_, rfl⟩)
  | declare name found => exact .inr (.inr ⟨name, _, rfl⟩)
  | assign dest foundLeft foundRight added => exact .inr (.inr ⟨dest.name, _, rfl⟩)

/-- All that a task can do, and the tasks that it gives. -/
inductive Performs (machine : Machine) : Task → Machine → List Task → Prop
  | act (line) {action after} (acts : machine.Acts action after) :
      Performs machine (.stmt (.action line action)) after []
  | loop (line guard bound body) :
      Performs machine (.stmt (.loop line guard bound body)) machine [.test line guard bound body]
  | branch (line block) {test yes} (holds : machine.holds test = .ok yes) :
      Performs machine (.stmt (.branch line test block)) machine
        (if yes then Task.ofBlock block else [])
  | choice (line block other) {test yes} (holds : machine.holds test = .ok yes) :
      Performs machine (.stmt (.choice line test block other)) machine
        (Task.ofBlock (if yes then block else other))
  | test (line bound body) {guard value} (found : machine.store.read guard = .ok value) :
      Performs machine (.test line guard bound body) machine
        (if value < bound then Task.ofBlock body ++ [.test line guard bound body] else [])

/-- A result that is used further is there. -/
theorem ok_of_map {α β : Type} {result : Except Fault α} {next : α → β} {value : β}
    (h : result.map next = .ok value) : ∃ own, result = .ok own ∧ next own = value := by
  cases result with
  | error fault => cases h
  | ok own =>
      cases h
      exact ⟨own, rfl, rfl⟩

theorem performs_of_perform {tasks : List Task}
    (performed : machine.perform task = .ok (after, tasks)) :
    machine.Performs task after tasks := by
  match task with
  | .stmt (.action line action) =>
      obtain ⟨own, acted, same⟩ := ok_of_map performed
      cases same
      exact .act line (acts_of_act acted)
  | .stmt (.loop line guard bound body) =>
      cases performed
      exact .loop line guard bound body
  | .stmt (.branch line test block) =>
      obtain ⟨yes, holds, same⟩ := ok_of_map performed
      cases same
      exact .branch line block holds
  | .stmt (.choice line test block other) =>
      obtain ⟨yes, holds, same⟩ := ok_of_map performed
      cases same
      exact .choice line block other holds
  | .test line guard bound body =>
      obtain ⟨value, found, same⟩ := ok_of_map performed
      cases same
      exact .test line bound body found

/-- A task that succeeds does to the machine what a statement of one line may do. -/
theorem perform_cases {tasks : List Task} (h : machine.perform task = .ok (after, tasks)) :
    after = machine ∨ (∃ line, after = machine.print line) ∨
      ∃ name value, after = machine.set name value := by
  cases performs_of_perform h with
  | act line acts => exact acts.cases
  | loop line guard bound body => exact .inl rfl
  | branch line block holds => exact .inl rfl
  | choice line block other holds => exact .inl rfl
  | test line bound body found => exact .inl rfl

/-- Doing a task leaves the count of steps to the charge. -/
theorem perform_steps {tasks : List Task} (h : machine.perform task = .ok (after, tasks)) :
    after.steps = machine.steps := by
  obtain rfl | ⟨line, rfl⟩ | ⟨name, value, rfl⟩ := perform_cases h
  · rfl
  · rfl
  · rfl

/-- A step that succeeds was allowed, and its effect is that of the task. -/
theorem step_eq_ok {tasks : List Task} (h : machine.step limits clock task = (after, .ok tasks)) :
    Meter.refusal limits clock (Meter.next machine.steps) = none ∧
      machine.tick.perform task = .ok (after, tasks) := by
  cases allowed : Meter.refusal limits clock (Meter.next machine.steps) with
  | some cause =>
      rw [step_of_refusal allowed] at h
      cases h
  | none =>
      rw [step_of_allowed allowed] at h
      exact ⟨rfl, attempt_eq_ok h⟩

/-- A step that fails is counted and does nothing else. -/
theorem step_eq_error {fault : Fault}
    (h : machine.step limits clock task = (after, .error fault)) : after = machine.tick := by
  cases allowed : Meter.refusal limits clock (Meter.next machine.steps) with
  | some cause =>
      rw [step_of_refusal allowed] at h
      cases h
      rfl
  | none =>
      rw [step_of_allowed allowed] at h
      exact attempt_eq_error h

/-- Every step is counted once, whether it succeeds or not. -/
theorem step_steps {result : Except Fault (List Task)}
    (h : machine.step limits clock task = (after, result)) :
    after.steps = Meter.next machine.steps := by
  cases result with
  | ok tasks => exact perform_steps (step_eq_ok h).2
  | error fault => rw [step_eq_error h, tick_steps]

end Step

/-- `Execution limits clock tasks machine charged after fault`: doing `tasks` from `machine` on
charges exactly the tasks `charged`, in this order, and ends with the machine `after`, because
nothing is left to do or because of `fault`. -/
inductive Execution (limits : Limits) (clock : Clock) :
    List Task → Machine → List Task → Machine → Option Fault → Prop where
  | done (machine) : Execution limits clock [] machine [] machine none
  | failed {task rest machine after fault} :
      machine.step limits clock task = (after, .error fault) →
      Execution limits clock (task :: rest) machine [task] after (some fault)
  | step {task rest machine next tasks charged after fault} :
      machine.step limits clock task = (next, .ok tasks) →
      Execution limits clock (tasks ++ rest) next charged after fault →
      Execution limits clock (task :: rest) machine (task :: charged) after fault

/-- The ending that is not a pause. -/
def Ending.ofFault : Option Fault → Ending
  | none => .finished
  | some fault => .failed fault

namespace Execution

variable {limits : Limits} {clock : Clock} {tasks charged : List Task} {machine after : Machine}
variable {fault : Option Fault}

/-- Where an execution begins decides what it charges and how it ends. -/
theorem deterministic {charged' : List Task} {after' : Machine} {fault' : Option Fault}
    (h : Execution limits clock tasks machine charged after fault)
    (h' : Execution limits clock tasks machine charged' after' fault') :
    charged' = charged ∧ after' = after ∧ fault' = fault := by
  induction h generalizing charged' with
  | done =>
      cases h'
      exact ⟨rfl, rfl, rfl⟩
  | failed stepped =>
      cases h' with
      | failed stepped' =>
          cases stepped.symm.trans stepped'
          exact ⟨rfl, rfl, rfl⟩
      | step stepped' _ => cases stepped.symm.trans stepped'
  | step stepped _ ih =>
      cases h' with
      | failed stepped' => cases stepped.symm.trans stepped'
      | step stepped' rest =>
          cases stepped.symm.trans stepped'
          obtain ⟨rfl, rfl, rfl⟩ := ih rest
          exact ⟨rfl, rfl, rfl⟩

/-- Fuel for every charge is enough. -/
theorem exec_eq (h : Execution limits clock tasks machine charged after fault) {fuel : Nat}
    (enough : charged.length ≤ fuel) :
    exec limits clock fuel tasks machine = (after, .ofFault fault) := by
  induction h generalizing fuel with
  | done => cases fuel <;> rfl
  | failed stepped =>
      cases fuel with
      | zero => simp at enough
      | succ fuel => simp [exec, stepped, Ending.ofFault]
  | step stepped _ ih =>
      cases fuel with
      | zero => simp at enough
      | succ fuel =>
          simp only [exec, stepped]
          exact ih (by simpa using enough)

theorem runTasks_eq (h : Execution limits clock tasks machine charged after fault)
    (enough : charged.length ≤ fuelFor limits machine.steps) :
    runTasks limits clock tasks machine = (after, fault) := by
  rw [runTasks, h.exec_eq enough]
  cases fault <;> rfl

end Execution

/-- What `exec` returns is an execution, or a pause with something left to do. -/
theorem exec_cases (limits : Limits) (clock : Clock) (fuel : Nat) (tasks : List Task)
    (machine : Machine) :
    (∃ charged after fault, Execution limits clock tasks machine charged after fault ∧
        charged.length ≤ fuel ∧ exec limits clock fuel tasks machine = (after, .ofFault fault)) ∨
      ∃ after task rest,
        exec limits clock fuel tasks machine = (after, .paused (task :: rest)) := by
  induction fuel generalizing tasks machine with
  | zero =>
      cases tasks with
      | nil => exact .inl ⟨_, _, _, .done machine, Nat.le_refl 0, rfl⟩
      | cons task rest => exact .inr ⟨machine, task, rest, rfl⟩
  | succ fuel ih =>
      match tasks with
      | [] => exact .inl ⟨_, _, _, .done machine, Nat.zero_le _, rfl⟩
      | task :: rest =>
          match stepped : machine.step limits clock task with
          | (after, .error fault) =>
              exact .inl
                ⟨_, _, _, .failed stepped, by simp, by simp [exec, stepped, Ending.ofFault]⟩
          | (next, .ok tasks) =>
              simp only [exec, stepped]
              obtain ⟨charged, after, fault, execution, enough, result⟩ | pause :=
                ih (tasks ++ rest) next
              · exact .inl ⟨_, _, _, .step stepped execution, by simpa using enough, result⟩
              · exact .inr pause

end Machine

/-- `source.Runs config clock charged after outcome`: a run of the source charges exactly the
tasks `charged`, in this order, leaves the machine `after` behind and has the outcome `outcome`.
A source that is refused charges nothing. -/
inductive Source.Runs (config : Config) (clock : Clock) (source : Source) :
    List Task → Machine → Outcome → Prop where
  | refused {fault} : Program.ofSource config.entry source = .error fault →
      Runs config clock source [] .initial (.fault fault)
  | executed {program charged after fault} :
      Program.ofSource config.entry source = .ok program →
      Machine.Execution config.limits clock (Task.ofBlock program.body) .initial charged after
        fault →
      Runs config clock source charged after (.ofEnd (after, fault))

namespace Source

variable {config : Config} {clock : Clock} {source : Source}

theorem run_of_refused {fault : Fault}
    (refused : Program.ofSource config.entry source = .error fault) :
    source.run config clock = .fault fault := by
  simp [run, refused]

theorem run_of_execution (config : Config) {program : Program} {charged : List Task}
    {after : Machine} {fault : Option Fault}
    (read : Program.ofSource config.entry source = .ok program)
    (execution : Machine.Execution config.limits clock (Task.ofBlock program.body) .initial
      charged after fault)
    (enough : charged.length ≤ Machine.fuelFor config.limits 0) :
    source.run config clock = .ofEnd (after, fault) := by
  simp only [run, read, Machine.runBlock]
  rw [execution.runTasks_eq enough]

/-- A source has a run without fuel, unless it is stopped by its budget. -/
theorem runs_or_budget (config : Config) (clock : Clock) (source : Source) :
    (∃ charged after, source.Runs config clock charged after (source.run config clock)) ∨
      ∃ fault, source.run config clock = .fault fault ∧ fault.code = .budget := by
  cases read : Program.ofSource config.entry source with
  | error fault => exact .inl ⟨_, _, by rw [run_of_refused read]; exact .refused read⟩
  | ok program =>
      obtain ⟨charged, after, fault, execution, enough, -⟩ | ⟨after, task, rest, pause⟩ :=
        Machine.exec_cases config.limits clock (Machine.fuelFor config.limits 0)
          (Task.ofBlock program.body) .initial
      · exact .inl ⟨_, _, by
          rw [run_of_execution config read execution enough]
          exact .executed read execution⟩
      · refine .inr ⟨⟨.stepLimit (UInt64.ofNat Meter.maxCount), task.pos⟩, ?_, rfl⟩
        simp only [run, read, Machine.runBlock, Machine.runTasks]
        rw [show Machine.initial.steps = 0 from rfl, pause]
        rfl

/-- There is only one run of a source under a configuration and a clock. -/
theorem Runs.deterministic {charged charged' : List Task} {after after' : Machine}
    {outcome outcome' : Outcome} (h : source.Runs config clock charged after outcome)
    (h' : source.Runs config clock charged' after' outcome') :
    charged' = charged ∧ after' = after ∧ outcome' = outcome := by
  cases h with
  | refused refused =>
      cases h' with
      | refused refused' =>
          cases refused.symm.trans refused'
          exact ⟨rfl, rfl, rfl⟩
      | executed read _ => cases refused.symm.trans read
  | executed read execution =>
      cases h' with
      | refused refused => cases read.symm.trans refused
      | executed read' execution' =>
          cases read.symm.trans read'
          obtain ⟨rfl, rfl, rfl⟩ := execution.deterministic execution'
          exact ⟨rfl, rfl, rfl⟩

end Source

end LineScript
