import LineScript.Proofs.FaultOrigin

/-!
# Passages of a run

A run goes from one list of tasks to the next. `Passes` says that it comes to a state with tasks
still to do, and `Halts` that it ends. Both are stated for any step function, so they can be used
for machines of more than one kind.

What each step keeps is kept by a run, wherever the run is looked at: `Machine.Keeps` names the
condition on one step, and from it follow the passages, the ends of executions and the results of
`exec`, whatever the fuel. A block is run with other tasks behind it as it is run alone, so the run
of a statement can be put together from the runs of its blocks.
-/

namespace LineScript

/-! ## Runs of a step function -/

/-- `Passes step tasks state charged left last`: doing `tasks` from `state` on charges `charged`,
each task with success, and comes to `last` with the tasks `left` still to do. -/
inductive Passes {σ : Type} (step : σ → Task → σ × Except Fault (List Task)) :
    List Task → σ → List Task → List Task → σ → Prop
  | here (tasks state) : Passes step tasks state [] tasks state
  | next {task rest state after tasks charged left last}
      (stepped : step state task = (after, .ok tasks))
      (later : Passes step (tasks ++ rest) after charged left last) :
      Passes step (task :: rest) state (task :: charged) left last

/-- `Halts step tasks state charged last fault`: doing `tasks` from `state` on charges `charged` and
ends with `last`, because nothing is left to do or because of `fault`. -/
inductive Halts {σ : Type} (step : σ → Task → σ × Except Fault (List Task)) (tasks : List Task)
    (state : σ) : List Task → σ → Option Fault → Prop
  | finished {charged last} (passed : Passes step tasks state charged [] last) :
      Halts step tasks state charged last none
  | failed {charged task rest before last fault}
      (passed : Passes step tasks state charged (task :: rest) before)
      (stepped : step before task = (last, .error fault)) :
      Halts step tasks state (charged ++ [task]) last (some fault)

section Runs

variable {σ : Type} {step : σ → Task → σ × Except Fault (List Task)}
variable {tasks middle left charged more : List Task} {state via last : σ} {fault : Option Fault}

namespace Passes

/-- One task that is done. -/
theorem single {task : Task} {rest : List Task} (stepped : step state task = (last, .ok tasks)) :
    Passes step (task :: rest) state [task] (tasks ++ rest) last :=
  .next stepped (.here _ _)

theorem trans (first : Passes step tasks state charged middle via)
    (second : Passes step middle via more left last) :
    Passes step tasks state (charged ++ more) left last := by
  induction first with
  | here tasks state => exact second
  | next stepped _ ih => exact .next stepped (ih second)

/-- Tasks that are to be done later do not matter. -/
theorem append (passed : Passes step tasks state charged left last) (rest : List Task) :
    Passes step (tasks ++ rest) state charged (left ++ rest) last := by
  induction passed with
  | here tasks state => exact .here _ _
  | next stepped _ ih =>
      rw [List.append_assoc] at ih
      exact .next stepped ih

end Passes

namespace Halts

/-- A step in front of a run that halts. -/
theorem next {task : Task} {rest : List Task} (stepped : step state task = (via, .ok tasks))
    (later : Halts step (tasks ++ rest) via charged last fault) :
    Halts step (task :: rest) state (task :: charged) last fault := by
  cases later with
  | finished passed => exact .finished (.next stepped passed)
  | failed passed failing => exact .failed (.next stepped passed) failing

end Halts

end Runs

namespace Machine

variable {limits : Limits} {clock : Clock} {tasks charged left : List Task} {stmts : List Stmt}
variable {machine after last : Machine} {fault : Option Fault}

/-- An execution is a run of the steps of the machine that halts. -/
theorem execution_iff : Execution limits clock tasks machine charged after fault ↔
    Halts (Machine.step limits clock) tasks machine charged after fault := by
  constructor
  · intro execution
    induction execution with
    | done machine => exact .finished (.here [] machine)
    | failed stepped => exact .failed (.here _ _) stepped
    | step stepped _ ih => exact ih.next stepped
  · intro stops
    cases stops with
    | finished passed =>
        generalize ended : ([] : List Task) = left at passed
        induction passed with
        | here tasks state =>
            cases ended
            exact .done _
        | next stepped _ ih => exact .step stepped (ih ended)
    | @failed charged task rest before last fault passed failing =>
        generalize ended : task :: rest = left at passed
        induction passed with
        | here tasks state =>
            cases ended
            exact .failed failing
        | next stepped _ ih => exact .step stepped (ih failing ended)

/-- An execution that succeeds is a passage to the end. -/
theorem Execution.passes (execution : Execution limits clock tasks machine charged after none) :
    Passes (Machine.step limits clock) tasks machine charged [] after := by
  cases execution_iff.mp execution with
  | finished passed => exact passed

/-- What `exec` comes to is a passage, and if it is not paused, an end. -/
theorem exec_passes (limits : Limits) (clock : Clock) (fuel : Nat) (tasks : List Task)
    (machine : Machine) :
    (∃ charged fault, Halts (Machine.step limits clock) tasks machine charged
        (exec limits clock fuel tasks machine).1 fault) ∨
      ∃ charged left, Passes (Machine.step limits clock) tasks machine charged left
        (exec limits clock fuel tasks machine).1 := by
  induction fuel generalizing tasks machine with
  | zero => cases tasks <;> exact .inr ⟨_, _, .here _ _⟩
  | succ fuel ih =>
      match tasks with
      | [] => exact .inr ⟨_, _, .here _ _⟩
      | task :: rest =>
          rw [exec]
          split
          · next stepped => exact .inl ⟨_, _, .failed (.here _ _) stepped⟩
          · next stepped =>
            rcases ih _ _ with ⟨charged, fault, halts⟩ | ⟨charged, left, passes⟩
            · exact .inl ⟨_, _, halts.next stepped⟩
            · exact .inr ⟨_, _, .next stepped passes⟩

/-! ## What every step keeps -/

/-- Every step of a statement within a tree keeps what holds of the machine, whether it succeeds or
not. -/
def Keeps (limits : Limits) (clock : Clock) (stmts : List Stmt) (holds : Machine → Prop) : Prop :=
  ∀ machine task after result, Stmt.Within task.owner stmts → holds machine →
    machine.step limits clock task = (after, result) → holds after

namespace Keeps

variable {holds : Machine → Prop}

/-- What does not depend on the count of steps is kept if statements of one line keep it, because
all others only say what is to be done next. -/
theorem of_acts (tick : ∀ machine, holds machine → holds machine.tick)
    (acts : ∀ line action machine after, Stmt.Within (.action line action) stmts →
      machine.Acts action after → holds machine → holds after) :
    Keeps limits clock stmts holds := by
  intro machine task after result within before stepped
  have counted := tick machine before
  cases result with
  | error fault =>
      rw [step_eq_error stepped]
      exact counted
  | ok tasks =>
      cases performs_of_perform (step_eq_ok stepped).2 with
      | act line done => exact acts line _ _ _ within done counted
      | loop line guard bound body => exact counted
      | branch line block found => exact counted
      | choice line block other found => exact counted
      | test line bound body found => exact counted

variable (kept : Keeps limits clock stmts holds)

include kept

theorem passes (owned : OwnedBy stmts tasks) (start : holds machine)
    (passed : Passes (Machine.step limits clock) tasks machine charged left last) :
    holds last ∧ OwnedBy stmts left := by
  induction passed with
  | here tasks state => exact ⟨start, owned⟩
  | next stepped _ ih =>
      exact ih (owned.step stepped) (kept _ _ _ _ (owned _ List.mem_cons_self) start stepped)

theorem halts (owned : OwnedBy stmts tasks) (start : holds machine)
    (ended : Halts (Machine.step limits clock) tasks machine charged last fault) : holds last := by
  cases ended with
  | finished passed => exact (kept.passes owned start passed).1
  | failed passed stepped =>
      obtain ⟨reached, ownedLeft⟩ := kept.passes owned start passed
      exact kept _ _ _ _ (ownedLeft _ List.mem_cons_self) reached stepped

theorem execution (owned : OwnedBy stmts tasks) (start : holds machine)
    (ended : Execution limits clock tasks machine charged after fault) : holds after :=
  kept.halts owned start (execution_iff.mp ended)

theorem exec (owned : OwnedBy stmts tasks) (start : holds machine) (fuel : Nat) :
    holds (exec limits clock fuel tasks machine).1 := by
  rcases exec_passes limits clock fuel tasks machine with ⟨_, _, ended⟩ | ⟨_, _, passed⟩
  · exact kept.halts owned start ended
  · exact (kept.passes owned start passed).1

/-- The state behind a run of tasks is that behind `exec`. -/
theorem runTasks (owned : OwnedBy stmts tasks) (start : holds machine) :
    holds (runTasks limits clock tasks machine).1 := by
  have reached := kept.exec owned start (fuelFor limits machine.steps)
  unfold Machine.runTasks
  split
  · next ended => rwa [ended] at reached
  · next ended => rwa [ended] at reached
  · next ended => rwa [ended] at reached

theorem runBlock (start : holds machine) : holds (runBlock limits clock stmts machine).1 :=
  kept.runTasks (ownedBy_ofBlock stmts) start

end Keeps

end Machine

end LineScript
