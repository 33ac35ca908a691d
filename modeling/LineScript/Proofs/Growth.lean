import LineScript.Proofs.Passage

/-!
# Execution only ever adds

Whatever a machine executes, and however that ends, the lines printed before are still there, in
front of the new ones, a variable that had a value still has one, and the count of steps has not
gone down. `Machine.Extends` says this of two states. It holds of every state that an execution
comes to, so nothing is taken back by a fault in the middle of a loop either.

A statement of one line is charged before it does anything, and it either fails or changes the
state: if it fails, only the count of steps differs. And because variables do not lose their values,
the guard of a loop that has been read once can be read again, whatever the body does.
-/

namespace LineScript

namespace Meter

variable {steps : Nat}

theorem le_next (countable : steps ≤ maxCount) : steps ≤ next steps := by
  unfold next
  omega

theorem next_le : next steps ≤ maxCount :=
  Nat.min_le_right _ _

end Meter

namespace Machine

/-- What was printed is still there, no variable has lost its value, and no step is uncounted. -/
structure Extends (before after : Machine) : Prop where
  output : before.output <+: after.output
  bound : ∀ name, (before.store.get? name).isSome → (after.store.get? name).isSome
  steps : before.steps ≤ after.steps

variable {limits : Limits} {clock : Clock} {machine after last : Machine} {task : Task}
variable {stmts : List Stmt}

namespace Extends

theorem refl (machine : Machine) : machine.Extends machine :=
  ⟨List.prefix_rfl, fun _ bound => bound, Nat.le_refl _⟩

theorem trans (first : machine.Extends after) (second : after.Extends last) :
    machine.Extends last :=
  ⟨first.output.trans second.output, fun name bound => second.bound name (first.bound name bound),
    Nat.le_trans first.steps second.steps⟩

theorem tick (countable : machine.steps ≤ Meter.maxCount) : machine.Extends machine.tick :=
  ⟨List.prefix_rfl, fun _ bound => bound, Meter.le_next countable⟩

theorem print (machine : Machine) (line : String) : machine.Extends (machine.print line) :=
  ⟨output_print machine line ▸ List.prefix_append _ _, fun _ bound => bound, Nat.le_refl _⟩

theorem set (machine : Machine) (name : String) (value : Int64) :
    machine.Extends (machine.set name value) := by
  refine ⟨List.prefix_rfl, fun other bound => ?_, Nat.le_refl _⟩
  change ((machine.store.set name value).get? other).isSome
  rw [Store.get?_set]
  split
  · rfl
  · exact bound

/-- A step adds to the machine, also if it fails. -/
theorem step {result : Except Fault (List Task)} (countable : machine.steps ≤ Meter.maxCount)
    (stepped : machine.step limits clock task = (after, result)) : machine.Extends after := by
  have counted : machine.Extends machine.tick := .tick countable
  cases result with
  | error fault => rwa [step_eq_error stepped]
  | ok tasks =>
      obtain rfl | ⟨line, rfl⟩ | ⟨name, value, rfl⟩ := perform_cases (step_eq_ok stepped).2
      · exact counted
      · exact counted.trans (.print _ line)
      · exact counted.trans (.set _ name value)

end Extends

/-- What extends a state goes on doing so. -/
theorem keeps_extends (limits : Limits) (clock : Clock) (stmts : List Stmt) (base : Machine) :
    Keeps limits clock stmts fun machine =>
      base.Extends machine ∧ machine.steps ≤ Meter.maxCount := by
  rintro machine task after result - ⟨sofar, countable⟩ stepped
  exact ⟨sofar.trans (.step countable stepped), step_steps stepped ▸ Meter.next_le⟩

/-- A variable with a value goes on having one. -/
theorem keeps_bound (limits : Limits) (clock : Clock) (stmts : List Stmt) (name : String) :
    Keeps limits clock stmts fun machine => (machine.store.get? name).isSome := by
  refine Keeps.of_acts (fun machine bound => bound) ?_
  intro line action machine after _ acts bound
  obtain rfl | ⟨line, rfl⟩ | ⟨other, value, rfl⟩ := acts.cases
  · exact bound
  · exact bound
  · exact (Extends.set _ other value).bound name bound

/-- A statement of one line that fails is one step that fails. -/
theorem step_of_runStmt_action {line : UInt32} {action : Action} {fault : Fault}
    (failed : runStmt limits clock (.action line action) machine = (after, some fault)) :
    machine.step limits clock (.stmt (.action line action)) = (after, .error fault) := by
  match stepped : machine.step limits clock (.stmt (.action line action)) with
  | (next, .error reason) =>
      have execution : Execution limits clock [.stmt (.action line action)] machine _ next _ :=
        .failed stepped
      rw [runStmt, execution.runTasks_eq (Nat.le_add_left 1 _)] at failed
      cases failed
      rfl
  | (next, .ok tasks) =>
      have nothing : tasks = [] := by
        cases performs_of_perform (step_eq_ok stepped).2
        rfl
      subst nothing
      have execution : Execution limits clock [.stmt (.action line action)] machine _ next _ :=
        .step stepped (.done next)
      rw [runStmt, execution.runTasks_eq (Nat.le_add_left 1 _)] at failed
      cases failed

/-- A test that fails because a variable is missing does not find its guard. -/
theorem read_of_step_test {line : UInt32} {guard : VarRef} {bound : Int64} {body : List Stmt}
    {fault : Fault} (missing : fault.code = .undeclared)
    (failed : machine.step limits clock (.test line guard bound body) = (after, .error fault)) :
    machine.store.read guard = .error fault := by
  cases allowed : Meter.refusal limits clock (Meter.next machine.steps) with
  | some cause =>
      rw [step_of_refusal allowed] at failed
      cases failed
      cases (Meter.code_of_refusal allowed).symm.trans missing
  | none =>
      rw [step_of_allowed allowed, attempt] at failed
      split at failed
      · cases failed
      · next undone =>
        cases failed
        exact error_of_map undone

/-- The guard of a loop that has been read can be read again, so only the first test of it can find
that it has no value. Before that only the statement itself has been charged. -/
theorem charged_of_guard_missing {line : UInt32} {guard : VarRef} {bound : Int64}
    {body : List Stmt} {charged rest : List Task} {before : Machine} {fault : Fault}
    (passed : Passes (Machine.step limits clock) [.stmt (.loop line guard bound body)] machine
      charged (.test line guard bound body :: rest) before)
    (unread : before.store.read guard = .error fault) :
    charged = [.stmt (.loop line guard bound body)] := by
  cases passed with
  | next entered later =>
      have owned := (ownedBy_ofBlock [.loop line guard bound body]).step entered
      cases performs_of_perform (step_eq_ok entered).2
      cases later with
      | here => rfl
      | next tested later =>
          -- The first test has found a value, and it is never lost again.
          exfalso
          have owned := owned.step tested
          cases performs_of_perform (step_eq_ok tested).2 with
          | test line bound body found =>
              have read : (machine.tick.tick.store.get? guard.name).isSome := by
                rw [Store.read_eq_ok.mp found, Option.isSome_some]
              have still := ((keeps_bound limits clock _ guard.name).passes owned read later).1
              rw [(Store.read_eq_error.mp unread).1] at still
              cases still

/-- What is kept of a machine whatever it executes next. -/
structure OnlyAdds (limits : Limits) (clock : Clock) (machine : Machine) : Prop where
  /-- A block that is executed adds to the machine, whether it fails or not. -/
  block : ∀ stmts, machine.Extends (runBlock limits clock stmts machine).1
  stmt : ∀ stmt, machine.Extends (runStmt limits clock stmt machine).1
  /-- The same holds without fuel, at every end. -/
  execution : ∀ stmts charged after fault,
    Execution limits clock (Task.ofBlock stmts) machine charged after fault → machine.Extends after
  /-- It holds on the way, also if there is no end. -/
  passage : ∀ stmts charged left last,
    Passes (Machine.step limits clock) (Task.ofBlock stmts) machine charged left last →
      machine.Extends last
  /-- A statement of one line that fails is counted and does nothing else. -/
  simple : ∀ line action after fault,
    runStmt limits clock (.action line action) machine = (after, some fault) → after = machine.tick
  /-- If a test of a loop fails because a variable is missing, then it is the first test: nothing
  but the statement has been charged before. -/
  guard : ∀ line guard bound body charged rest before last fault,
    Passes (Machine.step limits clock) [.stmt (.loop line guard bound body)] machine charged
      (.test line guard bound body :: rest) before →
    before.step limits clock (.test line guard bound body) = (last, .error fault) →
    fault.code = .undeclared → charged = [.stmt (.loop line guard bound body)]

end Machine

/-- Whatever a machine executes within whatever limits, it only adds to what it has printed, to the
variables that have a value and to the steps it has counted, as long as these can be counted. -/
theorem executing_onlyAdds (limits : Limits) (clock : Clock) (machine : Machine)
    (countable : machine.steps ≤ Meter.maxCount) : machine.OnlyAdds limits clock := by
  have start : machine.Extends machine ∧ machine.steps ≤ Meter.maxCount :=
    ⟨.refl machine, countable⟩
  have kept (stmts : List Stmt) := Machine.keeps_extends limits clock stmts machine
  constructor
  case block => exact fun stmts => ((kept stmts).runBlock start).1
  case stmt => exact fun stmt => ((kept [stmt]).runBlock start).1
  case execution =>
    intro stmts charged after fault execution
    exact ((kept stmts).execution (Machine.ownedBy_ofBlock stmts) start execution).1
  case passage =>
    intro stmts charged left last passed
    exact ((kept stmts).passes (Machine.ownedBy_ofBlock stmts) start passed).1.1
  case simple =>
    intro line action after fault failed
    exact Machine.step_eq_error (Machine.step_of_runStmt_action failed)
  case guard =>
    intro line guard bound body charged rest before last fault passed failed missing
    exact Machine.charged_of_guard_missing passed (Machine.read_of_step_test missing failed)

/-- The state that a fault in the body of a loop leaves behind. -/
theorem executing_onlyAdds_afterFault :
    let text := "var i = 0;\nwhile i < 2 \x7b\nprint \"i=\" + i;\ni = i + j;\n\x7d"
    let failed := Machine.runBlock .standard .still ((Source.ofText text).block 0 5) .initial
    failed.2 = some ⟨.undeclared "j", ⟨3, 8⟩⟩ ∧ failed.1.output = ["i=0"] ∧
      failed.1.steps ≤ Meter.maxCount ∧ failed.1.OnlyAdds .standard .still := by
  intro text failed
  have ended : failed.2 = some ⟨.undeclared "j", ⟨3, 8⟩⟩ ∧ failed.1.output = ["i=0"] ∧
      failed.1.steps ≤ Meter.maxCount := by decide +kernel
  obtain ⟨fault, printed, countable⟩ := ended
  exact ⟨fault, printed, countable, executing_onlyAdds .standard .still failed.1 countable⟩

end LineScript
