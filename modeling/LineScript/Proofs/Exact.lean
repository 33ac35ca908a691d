import LineScript.Proofs.NonNegative
import LineScript.Proofs.Passage
import LineScript.Proofs.StepLimit
import LineScript.Proofs.Entry

/-!
# Exact integers

An `ExactMachine` does what a `Machine` does, with the same charges and the same faults, except that
its variables hold integers of any size and the sum of two values is never refused. It is what a run
means to someone who does not think of words of 64 bits.

A machine and the exact one are kept in lockstep. They can only part at an assignment whose exact
sum is above the largest integer, and there the machine stops with that sum as its fault. So a run
is the unbounded one up to its end or up to the first such assignment, whichever comes first, and
no value that the machine stores, compares or prints is anything but the exact one. This rests on
values that are never negative: a sum cannot be out of range below.
-/

namespace LineScript

/-! ## The machine without a largest integer -/

/-- Whether a comparison holds between two integers of any size. -/
def Comparison.relates (op : Comparison) (lhs rhs : Int) : Bool :=
  match op with
  | eq => decide (lhs = rhs)
  | ne => decide (lhs ≠ rhs)
  | ge => decide (rhs ≤ lhs)
  | le => decide (lhs ≤ rhs)
  | gt => decide (rhs < lhs)
  | lt => decide (lhs < rhs)

/-- Words are compared as the integers they stand for. -/
theorem Comparison.relates_toInt (op : Comparison) (lhs rhs : Int64) :
    op.relates lhs.toInt rhs.toInt = op.holds lhs rhs := by
  cases op with
  | eq => exact Bool.eq_iff_iff.mpr (by simp [relates, holds, Int64.toInt_inj])
  | ne => exact Bool.eq_iff_iff.mpr (by simp [relates, holds, Int64.toInt_inj])
  | ge => simp only [relates, holds, Int64.le_iff_toInt_le]
  | le => simp only [relates, holds, Int64.le_iff_toInt_le]
  | gt => simp only [relates, holds, Int64.lt_iff_toInt_lt]
  | lt => simp only [relates, holds, Int64.lt_iff_toInt_lt]

/-- The state of a run whose variables hold integers of any size. -/
structure ExactMachine where
  store : String → Option Int
  printed : List String
  steps : Nat

namespace ExactMachine

/-- A machine that has done nothing yet. -/
def initial : ExactMachine := ⟨fun _ => none, [], 0⟩

/-- The lines printed so far, in order. -/
def output (machine : ExactMachine) : List String :=
  machine.printed.reverse

/-- Prints a line. -/
def print (machine : ExactMachine) (line : String) : ExactMachine :=
  { machine with printed := line :: machine.printed }

/-- Gives a variable a value. -/
def set (machine : ExactMachine) (name : String) (value : Int) : ExactMachine :=
  { machine with store := fun other => if name = other then some value else machine.store other }

/-- The value of a variable where it is used, or the fault that it has none. -/
def read (machine : ExactMachine) (ref : VarRef) : Except Fault Int :=
  match machine.store ref.name with
  | some value => .ok value
  | none => .error ⟨.undeclared ref.name, ref.pos⟩

/-- The value of an operand. -/
def eval (machine : ExactMachine) : Operand → Except Fault Int
  | .literal value _ => .ok value.toInt
  | .var ref => machine.read ref

/-- The effect of a statement of one line. A sum is never refused. -/
def act (machine : ExactMachine) : Action → Except Fault ExactMachine
  | .blank | .comment => .ok machine
  | .printText text => .ok (machine.print text)
  | .printValue text value =>
    match machine.eval value with
    | .error fault => .error fault
    | .ok number => .ok (machine.print (text ++ toString number))
  | .declare name value =>
    match machine.eval value with
    | .error fault => .error fault
    | .ok number => .ok (machine.set name number)
  | .assign dest lhs rhs =>
    match machine.eval lhs with
    | .error fault => .error fault
    | .ok left =>
      match machine.eval rhs with
      | .error fault => .error fault
      | .ok right => .ok (machine.set dest.name (left + right))
  | .invalid fault => .error fault

/-- Whether a test holds. -/
def holds (machine : ExactMachine) (test : Test) : Except Fault Bool :=
  (machine.read test.guard).map fun value => test.op.relates value test.literal.toInt

/-- The effect of a task that has been charged, as that of `Machine.perform`. -/
def perform (machine : ExactMachine) : Task → Except Fault (ExactMachine × List Task)
  | .stmt (.action _ action) => (machine.act action).map fun after => (after, [])
  | .stmt (.loop line guard bound body) => .ok (machine, [.test line guard bound body])
  | .stmt (.branch _ test block) =>
    (machine.holds test).map fun yes => (machine, if yes then Task.ofBlock block else [])
  | .stmt (.choice _ test block other) =>
    (machine.holds test).map fun yes => (machine, Task.ofBlock (if yes then block else other))
  | .test line guard bound body =>
    (machine.read guard).map fun value =>
      (machine,
        if value < bound.toInt then Task.ofBlock body ++ [.test line guard bound body] else [])

/-- One task: the charge, then the effect. -/
def step (limits : Limits) (clock : Clock) (machine : ExactMachine) (task : Task) :
    ExactMachine × Except Fault (List Task) :=
  match Meter.charge limits clock task.pos machine.steps with
  | (steps, some fault) => ({ machine with steps }, .error fault)
  | (steps, none) =>
    let charged := { machine with steps }
    match charged.perform task with
    | .ok (after, tasks) => (after, .ok tasks)
    | .error fault => (charged, .error fault)

/-- The machine after one more step has been counted. -/
def tick (machine : ExactMachine) : ExactMachine :=
  { machine with steps := Meter.next machine.steps }

/-- The next task is an assignment that the budget allows, its operands have the values `left` and
`right`, and no variable of a `Machine` can hold their sum. -/
structure Exceeds (limits : Limits) (clock : Clock) (machine : ExactMachine) (task : Task)
    (dest : VarRef) (left right : Int) : Prop where
  allowed : Meter.refusal limits clock (Meter.next machine.steps) = none
  assigns : ∃ line lhs rhs, task = .stmt (.action line (.assign dest lhs rhs)) ∧
    machine.eval lhs = .ok left ∧ machine.eval rhs = .ok right
  large : (maxInteger : Int) < left + right

end ExactMachine

namespace Machine

/-- The exact machine whose variables hold the integers that the words stand for. -/
def exact (machine : Machine) : ExactMachine :=
  ⟨fun name => (machine.store.get? name).map Int64.toInt, machine.printed, machine.steps⟩

theorem exact_initial : exact initial = .initial := by
  have nothing : (fun name => (Store.empty.get? name).map Int64.toInt) = fun _ => none := by
    funext name
    rw [Store.get?_empty, Option.map_none]
  simp only [exact, initial, nothing, ExactMachine.initial]

section Lockstep

variable {limits : Limits} {clock : Clock} {machine after : Machine} {task : Task}

theorem exact_set (machine : Machine) (name : String) (value : Int64) :
    (machine.set name value).exact = machine.exact.set name value.toInt := by
  have stored : (fun other => ((machine.store.set name value).get? other).map Int64.toInt) =
      fun other =>
        if name = other then some value.toInt else (machine.store.get? other).map Int64.toInt := by
    funext other
    rw [Store.get?_set]
    split <;> rfl
  simp only [exact, set, ExactMachine.set, stored]

theorem exact_read (machine : Machine) (ref : VarRef) :
    machine.exact.read ref = (machine.store.read ref).map Int64.toInt := by
  unfold ExactMachine.read Store.read
  cases found : machine.store.get? ref.name with
  | none => simp only [exact, found, Option.map_none, Except.map]
  | some value => simp only [exact, found, Option.map_some, Except.map]

theorem exact_eval (machine : Machine) (operand : Operand) :
    machine.exact.eval operand = (machine.store.eval operand).map Int64.toInt := by
  cases operand with
  | literal value pos => rfl
  | var ref => exact exact_read machine ref

/-- An operand has an exact value exactly if it has a value, and the two are the same integer. -/
theorem exact_eval_eq_ok {operand : Operand} {value : Int} :
    machine.exact.eval operand = .ok value ↔
      ∃ word, machine.store.eval operand = .ok word ∧ word.toInt = value := by
  rw [exact_eval]
  cases machine.store.eval operand with
  | error fault =>
      constructor
      · intro h
        cases h
      · rintro ⟨word, h, -⟩
        cases h
  | ok word =>
      constructor
      · intro h
        cases h
        exact ⟨word, rfl, rfl⟩
      · rintro ⟨_, ⟨⟩, rfl⟩
        rfl

theorem exact_holds (machine : Machine) (test : Test) :
    machine.exact.holds test = machine.holds test := by
  rw [ExactMachine.holds, holds, exact_read]
  cases machine.store.read test.guard with
  | error fault => rfl
  | ok value => simp only [Except.map, Comparison.relates_toInt]

/-- A statement of one line has the exact effect, unless it is an assignment whose sum is
refused. -/
theorem exact_act {action : Action}
    (fits : ∀ dest lhs rhs left right, action = .assign dest lhs rhs →
      machine.store.eval lhs = .ok left → machine.store.eval rhs = .ok right →
      addChecked left right ≠ none) :
    machine.exact.act action = (machine.act action).map exact := by
  cases action with
  | blank => rfl
  | comment => rfl
  | printText text => rfl
  | invalid fault => rfl
  | printValue text value =>
      simp only [ExactMachine.act, act, exact_eval]
      cases machine.store.eval value with
      | error fault => rfl
      | ok number => rfl
  | declare name value =>
      simp only [ExactMachine.act, act, exact_eval]
      cases machine.store.eval value with
      | error fault => rfl
      | ok number => simp only [Except.map, exact_set]
  | assign dest lhs rhs =>
      simp only [ExactMachine.act, act, exact_eval]
      cases foundLeft : machine.store.eval lhs with
      | error fault => rfl
      | ok left =>
          cases foundRight : machine.store.eval rhs with
          | error fault => rfl
          | ok right =>
              cases added : addChecked left right with
              | none => exact absurd added (fits dest lhs rhs left right rfl foundLeft foundRight)
              | some sum => simp only [Except.map, exact_set, addChecked_eq_some added, added]

/-- A task has the exact effect, unless it is an assignment whose sum is refused. -/
theorem exact_perform
    (fits : ∀ line dest lhs rhs left right, task = .stmt (.action line (.assign dest lhs rhs)) →
      machine.store.eval lhs = .ok left → machine.store.eval rhs = .ok right →
      addChecked left right ≠ none) :
    machine.exact.perform task =
      (machine.perform task).map fun (after, tasks) => (after.exact, tasks) := by
  match task with
  | .stmt (.action line action) =>
      have acted : machine.exact.act action = (machine.act action).map exact := by
        apply exact_act
        rintro dest lhs rhs left right rfl
        exact fits line dest lhs rhs left right rfl
      rw [ExactMachine.perform, perform, acted]
      cases machine.act action <;> rfl
  | .stmt (.loop line guard bound body) => rfl
  | .stmt (.branch line test block) =>
      rw [ExactMachine.perform, perform, exact_holds]
      cases machine.holds test <;> rfl
  | .stmt (.choice line test block other) =>
      rw [ExactMachine.perform, perform, exact_holds]
      cases machine.holds test <;> rfl
  | .test line guard bound body =>
      rw [ExactMachine.perform, perform, exact_read]
      cases machine.store.read guard with
      | error fault => rfl
      | ok value => simp only [Except.map, Int64.lt_iff_toInt_lt]

/-- As long as no sum is too large, a step of the machine is the exact one. -/
theorem exact_step {rest : List Task} (tame : Tame machine (task :: rest))
    (fits : ∀ dest left right, ¬ machine.exact.Exceeds limits clock task dest left right) :
    machine.exact.step limits clock task =
      ((machine.step limits clock task).1.exact, (machine.step limits clock task).2) := by
  cases allowed : Meter.refusal limits clock (Meter.next machine.steps) with
  | some cause =>
      rw [step_of_refusal allowed]
      simp only [ExactMachine.step, Meter.charge, exact, allowed, Option.map_some]
      rfl
  | none =>
      have performed : machine.tick.exact.perform task =
          (machine.tick.perform task).map fun (after, tasks) => (after.exact, tasks) := by
        apply exact_perform
        rintro line dest lhs rhs left right rfl foundLeft foundRight refused
        have own : Action.Natural _ := tame.owner List.mem_cons_self
        obtain ⟨notLeft, notRight⟩ := natural_summands tame.store own foundLeft foundRight
        apply fits dest left.toInt right.toInt
        refine ⟨allowed, ⟨line, lhs, rhs, rfl, ?_, ?_⟩, (addChecked_eq_none notLeft notRight).mp
          refused⟩
        · exact exact_eval_eq_ok.mpr ⟨left, foundLeft, rfl⟩
        · exact exact_eval_eq_ok.mpr ⟨right, foundRight, rfl⟩
      rw [step_of_allowed allowed, attempt]
      simp only [ExactMachine.step, Meter.charge, exact, allowed, Option.map_none]
      change (match machine.tick.exact.perform task with
        | .ok (after, tasks) => (after, Except.ok tasks)
        | .error fault => (machine.tick.exact, .error fault)) = _
      rw [performed]
      cases machine.tick.perform task <;> rfl

/-- A sum that is too large stops the machine, with the exact operands in its fault. -/
theorem step_of_exceeds {dest : VarRef} {left right : Int}
    {rest : List Task} (tame : Tame machine (task :: rest))
    (exceeds : machine.exact.Exceeds limits clock task dest left right) :
    ∃ lhs rhs : Int64, lhs.toInt = left ∧ rhs.toInt = right ∧
      machine.step limits clock task =
        (machine.tick, .error ⟨.sumOutOfRange lhs rhs, dest.pos⟩) := by
  obtain ⟨allowed, ⟨line, lhs, rhs, rfl, exactLeft, exactRight⟩, large⟩ := exceeds
  obtain ⟨leftWord, foundLeft, rfl⟩ := exact_eval_eq_ok.mp exactLeft
  obtain ⟨rightWord, foundRight, rfl⟩ := exact_eval_eq_ok.mp exactRight
  have own : Action.Natural _ := tame.owner List.mem_cons_self
  obtain ⟨notLeft, notRight⟩ := natural_summands tame.store own foundLeft foundRight
  have refused := (addChecked_eq_none notLeft notRight).mpr large
  refine ⟨leftWord, rightWord, rfl, rfl, ?_⟩
  have none_allowed : Meter.refusal limits clock (Meter.next machine.steps) = none := allowed
  rw [step_of_allowed none_allowed, attempt]
  simp only [perform, act, tick_store, foundLeft, foundRight, refused, Except.map]

/-- If a sum stops the machine, it is too large. -/
theorem exceeds_of_step {lhs rhs : Int64} {pos : Pos} {rest : List Task}
    (tame : Tame machine (task :: rest))
    (failed : machine.step limits clock task = (after, .error ⟨.sumOutOfRange lhs rhs, pos⟩)) :
    ∃ dest, machine.exact.Exceeds limits clock task dest lhs.toInt rhs.toInt := by
  have own := tame.owner List.mem_cons_self
  obtain ⟨line, dest, left, right, rfl, foundLeft, foundRight, refused⟩ :=
    step_sumOutOfRange own failed
  obtain ⟨notLeft, notRight⟩ := natural_summands tame.store own foundLeft foundRight
  refine ⟨dest, ?_, ⟨line, left, right, rfl, ?_, ?_⟩, (addChecked_eq_none notLeft notRight).mp
    refused⟩
  · change Meter.refusal limits clock (Meter.next machine.steps) = none
    cases allowed : Meter.refusal limits clock (Meter.next machine.steps) with
    | none => rfl
    | some cause =>
        rw [step_of_refusal allowed] at failed
        cases failed
        cases Meter.code_of_refusal allowed
  · exact exact_eval_eq_ok.mpr ⟨lhs, foundLeft, rfl⟩
  · exact exact_eval_eq_ok.mpr ⟨rhs, foundRight, rfl⟩

/-- A step that succeeds is the exact one. -/
theorem exact_step_ok {tasks rest : List Task} (tame : Tame machine (task :: rest))
    (stepped : machine.step limits clock task = (after, .ok tasks)) :
    machine.exact.step limits clock task = (after.exact, .ok tasks) := by
  rw [exact_step tame, stepped]
  intro dest left right exceeds
  obtain ⟨lhs, rhs, -, -, failed⟩ := step_of_exceeds tame exceeds
  cases stepped.symm.trans failed

end Lockstep

end Machine

/-! ## Lockstep -/

section Runs

variable {limits : Limits} {clock : Clock} {tasks charged left : List Task} {machine last : Machine}

/-- Every state that the machine comes to is the one that the exact machine comes to. -/
theorem Passes.exact (tame : machine.Tame tasks)
    (passed : Passes (Machine.step limits clock) tasks machine charged left last) :
    Passes (ExactMachine.step limits clock) tasks machine.exact charged left last.exact ∧
      last.Tame left := by
  induction passed with
  | here tasks state => exact ⟨.here _ _, tame⟩
  | next stepped _ ih =>
      obtain ⟨later, tameLast⟩ := ih (tame.step stepped)
      exact ⟨.next (Machine.exact_step_ok tame stepped) later, tameLast⟩

/-- None of the first `count` tasks that are charged takes a sum that is too large. -/
def Unexceeded (limits : Limits) (clock : Clock) (tasks : List Task) (state : ExactMachine)
    (count : Nat) : Prop :=
  ∀ front task rest before, Passes (ExactMachine.step limits clock) tasks state front (task :: rest)
    before → front.length < count →
    ∀ dest left right, ¬ before.Exceeds limits clock task dest left right

/-- As long as no sum has been too large, the machine comes to every state that the exact machine
comes to. -/
theorem Passes.ofExact {state : ExactMachine} (tame : machine.Tame tasks)
    (passed : Passes (ExactMachine.step limits clock) tasks machine.exact charged left state)
    (fits : Unexceeded limits clock tasks machine.exact charged.length) :
    ∃ last, last.exact = state ∧
      Passes (Machine.step limits clock) tasks machine charged left last := by
  generalize same : machine.exact = first at passed fits
  induction passed generalizing machine with
  | here tasks state => exact ⟨machine, same, .here _ _⟩
  | @next task rest first middle tasks charged left state stepped later ih =>
      subst same
      have here := fits [] task rest machine.exact (.here _ _) (Nat.zero_lt_succ _)
      rw [Machine.exact_step tame here] at stepped
      match same : machine.step limits clock task with
      | (after, result) =>
          rw [same] at stepped
          cases stepped
          have behind : Unexceeded limits clock (tasks ++ rest) after.exact charged.length := by
            intro front other left before passed shorter
            exact fits (task :: front) other left before
              (.next (Machine.exact_step_ok tame same) passed) (Nat.succ_lt_succ shorter)
          obtain ⟨last, rfl, passed⟩ := ih (tame.step same) rfl behind
          exact ⟨last, rfl, .next same passed⟩

/-- Without a sum that is too large, an execution is the exact one. -/
theorem Halts.exact {fault : Option Fault} (tame : machine.Tame tasks)
    (stops : Halts (Machine.step limits clock) tasks machine charged last fault)
    (fits : Unexceeded limits clock tasks machine.exact charged.length) :
    Halts (ExactMachine.step limits clock) tasks machine.exact charged last.exact fault := by
  cases stops with
  | finished passed => exact .finished (passed.exact tame).1
  | @failed charged task rest before _ fault passed failing =>
      obtain ⟨reached, tameBefore⟩ := passed.exact tame
      refine .failed reached ?_
      rw [Machine.exact_step tameBefore (fits charged task rest before.exact reached (by simp)),
        failing]

/-- Without a sum that is too large, the exact execution is one of the machine. -/
theorem Halts.ofExact {fault : Option Fault} {state : ExactMachine} (tame : machine.Tame tasks)
    (stops : Halts (ExactMachine.step limits clock) tasks machine.exact charged state fault)
    (fits : Unexceeded limits clock tasks machine.exact charged.length) :
    ∃ last, last.exact = state ∧
      Halts (Machine.step limits clock) tasks machine charged last fault := by
  cases stops with
  | finished passed =>
      obtain ⟨last, same, reached⟩ := passed.ofExact tame fits
      exact ⟨last, same, .finished reached⟩
  | @failed charged task rest before _ fault passed failing =>
      have sofar : Unexceeded limits clock tasks machine.exact charged.length := by
        intro front other left state passed shorter
        exact fits front other left state passed (by simp; omega)
      have here := fits charged task rest before passed (by simp)
      obtain ⟨middle, rfl, reached⟩ := passed.ofExact tame sofar
      rw [Machine.exact_step (reached.exact tame).2 here] at failing
      match stepped : middle.step limits clock task with
      | (after, result) =>
          rw [stepped] at failing
          cases failing
          exact ⟨after, rfl, .failed reached stepped⟩

end Runs

/-! ## Sources -/

/-- How an unbounded run ends: with what it printed, or with a fault. -/
def ExactMachine.outcome (machine : ExactMachine) : Option Fault → Outcome
  | none => .output machine.output
  | some fault => .fault fault

theorem Machine.outcome_exact (machine : Machine) (fault : Option Fault) :
    machine.exact.outcome fault = .ofEnd (machine, fault) := by
  cases fault <;> rfl

namespace Source

/-- `source.RunsExactly config clock charged after outcome`: the unbounded run of the source charges
exactly the tasks `charged`, leaves `after` behind and has the outcome `outcome`. -/
inductive RunsExactly (config : Config) (clock : Clock) (source : Source) :
    List Task → ExactMachine → Outcome → Prop
  | refused {fault} : Program.ofSource config.entry source = .error fault →
      RunsExactly config clock source [] .initial (.fault fault)
  | executed {program charged after fault} :
      Program.ofSource config.entry source = .ok program →
      Halts (ExactMachine.step config.limits clock) (Task.ofBlock program.body) .initial charged
        after fault →
      RunsExactly config clock source charged after (after.outcome fault)

/-- The run of the source charges `charged` and comes to `machine` with `tasks` still to do. -/
def Passes (config : Config) (clock : Clock) (source : Source) (charged : List Task)
    (machine : Machine) (tasks : List Task) : Prop :=
  ∃ program, Program.ofSource config.entry source = .ok program ∧
    LineScript.Passes (Machine.step config.limits clock) (Task.ofBlock program.body) .initial
      charged tasks machine

/-- The unbounded run of the source charges `charged` and comes to `machine` with `tasks` still to
do. -/
def PassesExactly (config : Config) (clock : Clock) (source : Source) (charged : List Task)
    (machine : ExactMachine) (tasks : List Task) : Prop :=
  ∃ program, Program.ofSource config.entry source = .ok program ∧
    LineScript.Passes (ExactMachine.step config.limits clock) (Task.ofBlock program.body) .initial
      charged tasks machine

/-- An assignment of the unbounded run that no `Machine` can make. -/
structure TooLarge where
  /-- What is charged before it. -/
  charged : List Task
  /-- The variables before it. -/
  before : ExactMachine
  task : Task
  dest : VarRef
  left : Int
  right : Int

/-- The unbounded run of the source makes an assignment that exceeds the largest integer. -/
def Makes (config : Config) (clock : Clock) (source : Source) (sum : TooLarge) : Prop :=
  ∃ rest, source.PassesExactly config clock sum.charged sum.before (sum.task :: rest) ∧
    sum.before.Exceeds config.limits clock sum.task sum.dest sum.left sum.right

/-- Of all such assignments this is the first. -/
def MakesFirst (config : Config) (clock : Clock) (source : Source) (sum : TooLarge) : Prop :=
  source.Makes config clock sum ∧
    ∀ other, source.Makes config clock other → sum.charged.length ≤ other.charged.length

variable {config : Config} {clock : Clock} {source : Source}

/-- If an assignment is too large, one is the first. -/
theorem exists_makesFirst {sum : TooLarge} (made : source.Makes config clock sum) :
    ∃ first, source.MakesFirst config clock first := by
  induction count : sum.charged.length using Nat.strongRecOn generalizing sum with
  | ind n ih =>
      by_cases earlier : ∃ other, source.Makes config clock other ∧
          other.charged.length < sum.charged.length
      · obtain ⟨other, makes, shorter⟩ := earlier
        exact ih _ (count ▸ shorter) makes rfl
      · refine ⟨sum, made, fun other makes => ?_⟩
        exact Nat.le_of_not_lt fun shorter => earlier ⟨other, makes, shorter⟩

/-- A program that has been read begins with nothing negative. -/
theorem tame_of_ofSource {program : Program}
    (read : Program.ofSource config.entry source = .ok program) :
    Machine.Tame .initial (Task.ofBlock program.body) := by
  obtain ⟨-, -, body⟩ := Program.ofSource_eq_ok read
  refine Machine.Called.tame ⟨source, program.region.first, program.region.stop, program.body, rfl,
    ?_⟩ Store.natural_empty
  intro stmt mem
  rw [body] at mem
  exact .here mem

/-- Whatever a run comes to is what the unbounded run comes to. -/
theorem Passes.exact {charged tasks : List Task} {machine : Machine}
    (passed : source.Passes config clock charged machine tasks) :
    source.PassesExactly config clock charged machine.exact tasks := by
  obtain ⟨program, read, passed⟩ := passed
  have both := (passed.exact (tame_of_ofSource read)).1
  rw [Machine.exact_initial] at both
  exact ⟨program, read, both⟩

/-- No assignment is too large among the first `count` tasks that are charged. -/
def Fits (config : Config) (clock : Clock) (source : Source) (count : Nat) : Prop :=
  ∀ sum, source.Makes config clock sum → count ≤ sum.charged.length

theorem Fits.unexceeded {count : Nat} {program : Program} (fits : source.Fits config clock count)
    (read : Program.ofSource config.entry source = .ok program) :
    Unexceeded config.limits clock (Task.ofBlock program.body) Machine.initial.exact count := by
  intro front task rest before reached shorter dest left right exceeds
  rw [Machine.exact_initial] at reached
  have later := fits ⟨front, before, task, dest, left, right⟩
    ⟨rest, ⟨program, read, reached⟩, exceeds⟩
  exact absurd shorter (Nat.not_lt.mpr later)

/-- A run in which no assignment is too large is the unbounded one. -/
theorem Runs.exact {charged : List Task} {after : Machine} {outcome : Outcome}
    (runs : source.Runs config clock charged after outcome)
    (fits : source.Fits config clock charged.length) :
    source.RunsExactly config clock charged after.exact outcome := by
  cases runs with
  | refused refused =>
      rw [Machine.exact_initial]
      exact .refused refused
  | executed read execution =>
      have stops := (Machine.execution_iff.mp execution).exact (tame_of_ofSource read)
        (fits.unexceeded read)
      rw [Machine.exact_initial] at stops
      rw [← Machine.outcome_exact]
      exact .executed read stops

/-- An unbounded run in which no assignment is too large is a run. -/
theorem RunsExactly.word {charged : List Task} {state : ExactMachine} {outcome : Outcome}
    (runs : source.RunsExactly config clock charged state outcome)
    (fits : source.Fits config clock charged.length) :
    ∃ after, source.Runs config clock charged after outcome ∧ after.exact = state := by
  cases runs with
  | refused refused => exact ⟨.initial, .refused refused, Machine.exact_initial⟩
  | executed read stops =>
      rw [← Machine.exact_initial] at stops
      obtain ⟨after, same, words⟩ := stops.ofExact (tame_of_ofSource read) (fits.unexceeded read)
      rw [← same, Machine.outcome_exact]
      exact ⟨after, .executed read (Machine.execution_iff.mpr words), rfl⟩

/-- The first assignment that is too large ends the run. -/
theorem MakesFirst.runs {sum : TooLarge} (first : source.MakesFirst config clock sum) :
    ∃ (lhs rhs : Int64) (after : Machine), lhs.toInt = sum.left ∧ rhs.toInt = sum.right ∧
      after.exact = sum.before.tick ∧
      source.Runs config clock (sum.charged ++ [sum.task]) after
        (.fault ⟨.sumOutOfRange lhs rhs, sum.dest.pos⟩) := by
  obtain ⟨⟨rest, ⟨program, read, passed⟩, exceeds⟩, earliest⟩ := first
  have tame := tame_of_ofSource read
  have fits : source.Fits config clock sum.charged.length := earliest
  rw [← Machine.exact_initial] at passed
  obtain ⟨before, same, reached⟩ := passed.ofExact tame (fits.unexceeded read)
  rw [← same] at exceeds
  obtain ⟨lhs, rhs, left, right, failed⟩ := Machine.step_of_exceeds (reached.exact tame).2 exceeds
  refine ⟨lhs, rhs, before.tick, left, right, ?_, ?_⟩
  · rw [← same]
    rfl
  · exact .executed read (Machine.execution_iff.mpr (.failed reached failed))

/-- A run that ends with a sum out of range has come to an assignment that is too large. -/
theorem Runs.makes {charged : List Task} {after : Machine} {lhs rhs : Int64} {pos : Pos}
    (runs : source.Runs config clock charged after (.fault ⟨.sumOutOfRange lhs rhs, pos⟩)) :
    ∃ sum, source.Makes config clock sum := by
  generalize ended : Outcome.fault ⟨.sumOutOfRange lhs rhs, pos⟩ = outcome at runs
  cases runs with
  | refused refused =>
      cases ended
      rcases Program.code_of_ofSource_eq_error refused with code | code | code
      · cases code
      · cases code
      · cases code
  | executed read execution =>
      have tame := tame_of_ofSource read
      cases Machine.execution_iff.mp execution with
      | finished passed => cases ended
      | @failed charged task rest before _ fault passed failing =>
          cases ended
          obtain ⟨reached, tameBefore⟩ := passed.exact tame
          obtain ⟨dest, exceeds⟩ := Machine.exceeds_of_step tameBefore failing
          rw [Machine.exact_initial] at reached
          exact ⟨⟨charged, before.exact, task, dest, lhs.toInt, rhs.toInt⟩, rest,
            ⟨_, read, reached⟩, exceeds⟩

/-- A run is the unbounded one: both charge the same tasks, leave the same values, lines and steps
behind and have the same outcome. `run` computes it if the charges can be counted, and under a step
limit it always does. -/
structure IsExact (config : Config) (clock : Clock) (source : Source) : Prop where
  runs : ∀ charged exact outcome, source.RunsExactly config clock charged exact outcome ↔
    ∃ after, source.Runs config clock charged after outcome ∧ after.exact = exact
  run_eq : ∀ charged exact outcome, source.RunsExactly config clock charged exact outcome →
    charged.length ≤ UInt64.size → source.run config clock = outcome
  ends : ∀ limit, config.limits.maxSteps = some limit → limit.toNat < UInt64.size - 1 →
    ∃ charged exact, source.RunsExactly config clock charged exact (source.run config clock)

/-- A run ends at an assignment, with the values of the operands in its fault, at the destination.
It has come there as the unbounded run has. -/
def OverflowsAt (config : Config) (clock : Clock) (source : Source) (sum : TooLarge) : Prop :=
  ∃ (lhs rhs : Int64) (after : Machine), lhs.toInt = sum.left ∧ rhs.toInt = sum.right ∧
    after.exact = sum.before.tick ∧
    source.Runs config clock (sum.charged ++ [sum.task]) after
      (.fault ⟨.sumOutOfRange lhs rhs, sum.dest.pos⟩) ∧
    (sum.charged.length < UInt64.size →
      source.run config clock = .fault ⟨.sumOutOfRange lhs rhs, sum.dest.pos⟩)

theorem isExact_of_fits (fits : ∀ sum, ¬ source.Makes config clock sum) :
    source.IsExact config clock := by
  have fit (count : Nat) : source.Fits config clock count :=
    fun sum makes => absurd makes (fits sum)
  constructor
  · intro charged exact outcome
    constructor
    · intro runs
      exact runs.word (fit _)
    · rintro ⟨after, runs, rfl⟩
      exact runs.exact (fit _)
  · intro charged exact outcome runs countable
    obtain ⟨after, runs, -⟩ := runs.word (fit _)
    exact runs.run_eq countable
  · intro limit limited finite
    obtain ⟨charged, after, runs⟩ := exists_runs config clock source limited finite
    exact ⟨charged, after.exact, runs.exact (fit _)⟩

theorem MakesFirst.overflowsAt {sum : TooLarge} (first : source.MakesFirst config clock sum) :
    source.OverflowsAt config clock sum := by
  obtain ⟨lhs, rhs, after, left, right, same, runs⟩ := first.runs
  refine ⟨lhs, rhs, after, left, right, same, runs, fun few => ?_⟩
  apply runs.run_eq
  simp only [List.length_append, List.length_singleton]
  omega

end Source

/-- A run does what the unbounded run does, as far as it goes: every state it comes to is the exact
one. If no assignment of the unbounded run is too large, the two are the same to the end. Otherwise
there is a first assignment that is, and the run ends there. -/
theorem run_refines_exact (config : Config) (clock : Clock) (text : String) :
    let source := Source.ofText text
    (∀ charged machine tasks, source.Passes config clock charged machine tasks →
      source.PassesExactly config clock charged machine.exact tasks) ∧
    ((∀ sum, ¬ source.Makes config clock sum) → source.IsExact config clock) ∧
    ((∃ sum, source.Makes config clock sum) →
      ∃ first, source.MakesFirst config clock first) ∧
    ∀ first, source.MakesFirst config clock first → source.OverflowsAt config clock first := by
  intro source
  refine ⟨fun _ _ _ passed => passed.exact, Source.isExact_of_fits, ?_,
    fun _ first => first.overflowsAt⟩
  rintro ⟨sum, makes⟩
  exact Source.exists_makesFirst makes

/-- A sum that gets too large in the second round of a loop. -/
theorem run_refines_exact_doubling :
    let text := "var i = 2305843009213693952;\nvar j = 0;\n" ++
      "while j < 2 \x7b\n  i = i + i;\n  j = j + 1;\n\x7d"
    let source := Source.ofText text
    run .standard .still text =
      .fault ⟨.sumOutOfRange 4611686018427387904 4611686018427387904, ⟨3, 2⟩⟩ ∧
    ∃ first, source.MakesFirst .standard .still first ∧
      source.OverflowsAt .standard .still first := by
  intro text source
  have overflow : run .standard .still text =
      .fault ⟨.sumOutOfRange 4611686018427387904 4611686018427387904, ⟨3, 2⟩⟩ := by decide +kernel
  obtain ⟨-, -, exceeding, ends⟩ := run_refines_exact .standard .still text
  obtain ⟨charged, after, runs⟩ :=
    Source.exists_runs .standard .still source rfl (by decide)
  have made : ∃ sum, source.Makes .standard .still sum := by
    rw [show source.run .standard .still = _ from overflow] at runs
    exact runs.makes
  obtain ⟨first, makes⟩ := exceeding made
  exact ⟨overflow, first, makes, ends first makes⟩

end LineScript
