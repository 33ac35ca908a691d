import LineScript.Proofs.Footprint
import LineScript.Proofs.Growth
import LineScript.Proofs.StepLimit

/-!
# Counting loops

A loop that adds one to its guard at the end of its body, and does not write it anywhere else, goes
round exactly as often as the guard is below the bound. Its body sees the values from the first one
up to the bound in order, and the sum is never out of range, since it is taken only of values below
the bound. This holds for any body, as long as the body succeeds whenever the loop comes to it.

The invariant is `CountingLoop.Progress`: after some rounds the loop stands before its test, with
the guard raised by the number of rounds. One more round keeps it, because the body leaves the
guard alone; and the last test finds the bound. The charges are given as the list of tasks, so
their number is exact, and the count of the machine is that number as long as it can be counted.
-/

namespace LineScript

/-- No limits at all. -/
def Limits.unlimited : Limits := ⟨none, none⟩

/-- A loop that counts a variable up to a bound and does something else before it counts. -/
structure CountingLoop where
  line : UInt32
  name : String
  guardPos : Pos
  bound : Int64
  body : List Stmt
  incrementLine : UInt32
  destPos : Pos
  valuePos : Pos
  onePos : Pos
  /-- The body does not write the variable, at any depth. -/
  unwritten : ¬ Stmt.Writes body name

namespace CountingLoop

section

variable (loop : CountingLoop)

/-- The variable that counts. -/
def guard : VarRef := ⟨loop.name, loop.guardPos⟩

/-- The statement at the end of the loop, which adds one to the variable. -/
def increment : Stmt :=
  .action loop.incrementLine
    (.assign ⟨loop.name, loop.destPos⟩ (.var ⟨loop.name, loop.valuePos⟩) (.literal 1 loop.onePos))

/-- The block of the loop. -/
def block : List Stmt := loop.body ++ [loop.increment]

/-- The loop as a statement. -/
def stmt : Stmt := .loop loop.line loop.guard loop.bound loop.block

/-- The test before each round and after the last. -/
def test : Task := .test loop.line loop.guard loop.bound loop.block

/-- The loop has charged `charged` since it was begun in `machine`, and its body is executed next,
from `start` on. -/
def Begins (clock : Clock) (machine : Machine) (charged : List Task) (start : Machine) : Prop :=
  Passes (Machine.step .unlimited clock) [.stmt loop.stmt] machine charged
    (Task.ofBlock loop.body ++ [.stmt loop.increment, loop.test]) start

/-- Each execution of the body that the loop comes to succeeds. -/
def Returns (clock : Clock) (machine : Machine) : Prop :=
  ∀ charged start, loop.Begins clock machine charged start →
    ∃ spent stop, Machine.Execution .unlimited clock (Task.ofBlock loop.body) start spent stop none

end

/-- An execution of the body: where it begins, what it charges and where it stops. -/
structure Round where
  start : Machine
  charged : List Task
  stop : Machine

/-- What is charged for some rounds: for each of them the test, the body and the increment. -/
def charges (loop : CountingLoop) (rounds : List Round) : List Task :=
  rounds.flatMap fun round => loop.test :: (round.charged ++ [.stmt loop.increment])

/-- What is charged for the whole loop: the statement, the rounds and the last test. -/
def charged (loop : CountingLoop) (rounds : List Round) : List Task :=
  .stmt loop.stmt :: (loop.charges rounds ++ [loop.test])

/-- The loop comes to a round behind the rounds `before`. The body sees the first value, raised by
the number of these, and succeeds. -/
structure Takes (loop : CountingLoop) (clock : Clock) (machine : Machine) (first : Int64)
    (before : List Round) (round : Round) : Prop where
  begins : loop.Begins clock machine (loop.charged before) round.start
  seen : ∃ value, round.start.store.get? loop.name = some value ∧
    value.toInt = first.toInt + before.length
  executed : Machine.Execution .unlimited clock (Task.ofBlock loop.body) round.start round.charged
    round.stop none

/-- The loop, begun in `machine`, succeeds after exactly the rounds `rounds` and leaves `after`
behind. -/
structure Counts (loop : CountingLoop) (clock : Clock) (machine : Machine) (first : Int64)
    (rounds : List Round) (after : Machine) : Prop where
  /-- As many rounds as the bound is above the first value. -/
  count : rounds.length = (loop.bound.toInt - first.toInt).toNat
  takes : ∀ k (below : k < rounds.length),
    loop.Takes clock machine first (rounds.take k) rounds[k]
  ends : Machine.Execution .unlimited clock [.stmt loop.stmt] machine (loop.charged rounds) after
    none
  value : ∃ value, after.store.get? loop.name = some value ∧
    value.toInt = max first.toInt loop.bound.toInt
  /-- One for the statement, one for each test, one for each increment, and what the body charges in
  each round. -/
  cost : (loop.charged rounds).length =
    1 + (rounds.length + 1) + (rounds.length + (rounds.flatMap Round.charged).length)
  /-- As long as the charges can be counted, this is what the machine computes. -/
  run : machine.steps + (loop.charged rounds).length < UInt64.size →
    Machine.runStmt .unlimited clock loop.stmt machine = (after, none) ∧
      after.steps = machine.steps + (loop.charged rounds).length

/-- Behind some rounds the loop stands before its test, and the variable is raised by their
number. -/
structure Progress (loop : CountingLoop) (clock : Clock) (machine : Machine) (first : Int64)
    (rounds : List Round) (here : Machine) : Prop where
  passed : Passes (Machine.step .unlimited clock) [.stmt loop.stmt] machine
    (.stmt loop.stmt :: loop.charges rounds) [loop.test] here
  value : ∃ value, here.store.get? loop.name = some value ∧
    value.toInt = first.toInt + rounds.length
  takes : ∀ k (below : k < rounds.length),
    loop.Takes clock machine first (rounds.take k) rounds[k]

variable {loop : CountingLoop} {clock : Clock} {machine here : Machine} {first value : Int64}
variable {rounds : List Round}

/-! ## The steps of a loop -/

theorem charges_snoc (rounds : List Round) (round : Round) :
    loop.charges (rounds ++ [round]) =
      loop.charges rounds ++ loop.test :: (round.charged ++ [.stmt loop.increment]) := by
  simp [charges]

/-- Without limits every step is allowed. -/
theorem step_unlimited (task : Task) :
    machine.step .unlimited clock task = machine.tick.attempt task :=
  Machine.step_of_allowed rfl

theorem step_stmt : machine.step .unlimited clock (.stmt loop.stmt) =
    (machine.tick, .ok [loop.test]) :=
  step_unlimited _

/-- Below the bound a test gives the body, the increment and the test again. -/
theorem step_test_below (clock : Clock) (held : machine.store.get? loop.name = some value)
    (below : value < loop.bound) :
    machine.step .unlimited clock loop.test =
      (machine.tick, .ok (Task.ofBlock loop.body ++ [.stmt loop.increment, loop.test])) := by
  have found : machine.tick.store.read loop.guard = .ok value := Store.read_eq_ok.mpr held
  rw [step_unlimited, Machine.attempt, test, Machine.perform, found]
  simp only [Except.map, if_pos below]
  simp [Task.ofBlock, block]

/-- From the bound on a test gives nothing. -/
theorem step_test_reached (clock : Clock) (held : machine.store.get? loop.name = some value)
    (reached : ¬ value < loop.bound) :
    machine.step .unlimited clock loop.test = (machine.tick, .ok []) := by
  have found : machine.tick.store.read loop.guard = .ok value := Store.read_eq_ok.mpr held
  rw [step_unlimited, Machine.attempt, test, Machine.perform, found]
  simp only [Except.map, if_neg reached]

/-- The increment of a value that is not the largest one succeeds. -/
theorem step_increment (clock : Clock) (held : machine.store.get? loop.name = some value)
    (small : value.toInt < Int64.maxValue.toInt) :
    ∃ next : Int64, next.toInt = value.toInt + 1 ∧
      machine.step .unlimited clock (.stmt loop.increment) =
        (machine.tick.set loop.name next, .ok []) := by
  have one : (1 : Int64).toInt = 1 := by decide
  have above := Int64.le_toInt value
  have bottom : Int64.minValue.toInt = -2 ^ 63 := by decide
  have least : Int64.minValue.toInt ≤ value.toInt + (1 : Int64).toInt := by omega
  obtain ⟨next, added, same⟩ := exists_addChecked least (by omega)
  have found : machine.tick.store.eval (.var ⟨loop.name, loop.valuePos⟩) = .ok value :=
    Store.read_eq_ok.mpr held
  have given : machine.tick.store.eval (.literal 1 loop.onePos) = .ok 1 := rfl
  refine ⟨next, by omega, ?_⟩
  rw [step_unlimited, Machine.attempt, increment, Machine.perform, Machine.act]
  simp only [found, given, added, Except.map]

/-! ## Rounds -/

/-- The loop stands before its first test. -/
theorem progress_entered (held : machine.store.get? loop.name = some first) :
    loop.Progress clock machine first [] machine.tick where
  passed := .single step_stmt
  value := ⟨first, held, by simp⟩
  takes k below := by cases below

/-- Another round is taken below the bound. The body leaves the variable alone, and the increment
raises it by one. -/
theorem Progress.next (progress : loop.Progress clock machine first rounds here)
    (below : first.toInt + rounds.length < loop.bound.toInt)
    (returns : loop.Returns clock machine) :
    ∃ round after, loop.Progress clock machine first (rounds ++ [round]) after := by
  obtain ⟨value, held, same⟩ := progress.value
  have less : value < loop.bound := Int64.lt_iff_toInt_lt.mpr (by omega)
  have begins : loop.Begins clock machine (loop.charged rounds) here.tick := by
    have tested := step_test_below clock held less
    exact progress.passed.trans (.next tested (by rw [List.append_nil]; exact .here _ _))
  obtain ⟨spent, stop, execution⟩ := returns _ _ begins
  have heldBefore : here.tick.store.get? loop.name = some value := held
  have unwritten := Machine.keeps_unwritten .unlimited clock loop.unwritten (some value)
  have kept : stop.store.get? loop.name = some value :=
    unwritten.execution (Machine.ownedBy_ofBlock loop.body) heldBefore execution
  have largest := Int64.toInt_le loop.bound
  obtain ⟨next, raised, counted⟩ := step_increment clock kept (by omega)
  refine ⟨⟨here.tick, spent, stop⟩, stop.tick.set loop.name next, ?_, ⟨next, ?_, ?_⟩, ?_⟩
  · have through := (execution.passes.append [.stmt loop.increment, loop.test]).trans
      (.single counted)
    have whole := begins.trans through
    rw [charges_snoc]
    simpa [charged] using whole
  · exact (Store.get?_set _ _ _ _).trans (if_pos rfl)
  · rw [List.length_append, List.length_singleton]
    omega
  · intro k within
    rw [List.length_append, List.length_singleton] at within
    by_cases earlier : k < rounds.length
    · rw [List.take_append_of_le_length (Nat.le_of_lt earlier), List.getElem_append_left earlier]
      exact progress.takes k earlier
    · obtain rfl : k = rounds.length := by omega
      rw [List.take_left, List.getElem_concat_length rfl]
      exact ⟨begins, ⟨value, held, same⟩, execution⟩

/-- Up to the bound the loop takes any number of rounds. -/
theorem exists_progress (held : machine.store.get? loop.name = some first)
    (returns : loop.Returns clock machine) (count : Nat)
    (within : count ≤ (loop.bound.toInt - first.toInt).toNat) :
    ∃ rounds here, rounds.length = count ∧ loop.Progress clock machine first rounds here := by
  induction count with
  | zero => exact ⟨[], machine.tick, rfl, progress_entered held⟩
  | succ count ih =>
      obtain ⟨rounds, here, length, progress⟩ := ih (by omega)
      obtain ⟨round, after, more⟩ := progress.next (by omega) returns
      exact ⟨rounds ++ [round], after, by rw [List.length_append, length]; rfl, more⟩

theorem length_charged (rounds : List Round) : (loop.charged rounds).length =
    1 + (rounds.length + 1) + (rounds.length + (rounds.flatMap Round.charged).length) := by
  have inRounds : (loop.charges rounds).length =
      rounds.length + (rounds.length + (rounds.flatMap Round.charged).length) := by
    induction rounds with
    | nil => rfl
    | cons round rounds ih =>
        simp only [charges, List.flatMap_cons, List.length_append, List.length_cons,
          List.length_nil] at ih ⊢
        omega
  simp only [charged, List.length_cons, List.length_append, List.length_nil, inRounds]
  omega

/-- When the bound is reached the loop ends. -/
theorem Progress.counts (progress : loop.Progress clock machine first rounds here)
    (count : rounds.length = (loop.bound.toInt - first.toInt).toNat) :
    loop.Counts clock machine first rounds here.tick := by
  obtain ⟨value, held, same⟩ := progress.value
  have reached : ¬ value < loop.bound := by
    rw [Int64.lt_iff_toInt_lt]
    omega
  have passed : Passes (Machine.step .unlimited clock) [.stmt loop.stmt] machine
      (loop.charged rounds) [] here.tick :=
    progress.passed.trans (.single (step_test_reached clock held reached))
  have ends := Machine.execution_iff.mpr (.finished passed)
  refine ⟨count, progress.takes, ends, ⟨value, held, by omega⟩, length_charged rounds, ?_⟩
  intro countable
  have top : Meter.maxCount + 1 = UInt64.size := rfl
  refine ⟨ends.runTasks_eq ?_, ends.steps_eq (by omega)⟩
  change (loop.charged rounds).length ≤ Meter.maxCount - machine.steps + 1
  omega

end CountingLoop

/-- Without limits, a loop that counts from a first value up to a bound, and whose body succeeds
whenever the loop comes to it, succeeds after as many rounds as the bound is above the first value,
and leaves the larger of the two behind. -/
theorem loop_counts (loop : CountingLoop) (clock : Clock) (machine : Machine) (first : Int64)
    (held : machine.store.get? loop.name = some first) (returns : loop.Returns clock machine) :
    ∃ rounds after, loop.Counts clock machine first rounds after := by
  obtain ⟨rounds, here, count, progress⟩ :=
    CountingLoop.exists_progress held returns _ (Nat.le_refl _)
  exact ⟨rounds, here.tick, progress.counts count⟩

/-- A loop that prints its variable, up to the largest integer there is. -/
theorem loop_counts_toLargest :
    let loop : CountingLoop :=
      ⟨0, "i", ⟨0, 6⟩, Int64.maxValue, [.action 1 (.printValue "i=" (.var ⟨"i", ⟨1, 13⟩⟩))], 2,
        ⟨2, 0⟩, ⟨2, 4⟩, ⟨2, 8⟩, by decide +kernel⟩
    let first : Int64 := Int64.maxValue - 2
    let machine := Machine.initial.set "i" first
    machine.store.get? loop.name = some first ∧ loop.Returns .still machine ∧
      ∃ rounds after, loop.Counts .still machine first rounds after := by
  intro loop first machine
  have held : machine.store.get? loop.name = some first :=
    (Store.get?_set _ _ _ _).trans (if_pos rfl)
  have returns : loop.Returns .still machine := by
    intro charged start begins
    have bound : (machine.store.get? loop.name).isSome := by rw [held, Option.isSome_some]
    have still := ((Machine.keeps_bound .unlimited .still [loop.stmt] loop.name).passes
      (Machine.ownedBy_ofBlock [loop.stmt]) bound begins).1
    obtain ⟨value, here⟩ := Option.isSome_iff_exists.mp still
    have found : start.tick.store.eval (.var ⟨"i", ⟨1, 13⟩⟩) = .ok value :=
      Store.read_eq_ok.mpr here
    have stepped : start.step .unlimited .still
        (.stmt (.action 1 (.printValue "i=" (.var ⟨"i", ⟨1, 13⟩⟩)))) =
        (start.tick.print ("i=" ++ toString value.toInt), .ok []) := by
      rw [CountingLoop.step_unlimited, Machine.attempt, Machine.perform, Machine.act, found]
      rfl
    exact ⟨_, _, .step stepped (.done _)⟩
  exact ⟨held, returns, loop_counts loop .still machine first held returns⟩

end LineScript
