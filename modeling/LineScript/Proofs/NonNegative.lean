import LineScript.Proofs.FaultOrigin
import LineScript.Proofs.FormValue
import LineScript.Proofs.Reading

/-!
# Values are never negative

An integer is written with digits only and is refused if it is larger than the largest integer, so
no literal is negative; and the only operation is a sum that is refused if it is out of range. So
no variable ever holds a negative value, and a sum can only be out of range above.

`Machine.Reached` says which states a machine can be brought into by executing statements that were
read from any lines of any sources, call after call, whether the calls before have failed or not.
Nothing is assumed about the sources: they need not be balanced, and the lines need not be those of
`main`.
-/

namespace LineScript

/-! ## Literals -/

/-- A literal is not negative. -/
def Operand.Natural : Operand → Prop
  | .literal value _ => 0 ≤ value.toInt
  | .var _ => True

/-- A statement uses no negative literal and does not carry the fault of a sum: a sum can only be
out of range when it is taken. -/
structure Action.Natural (action : Action) : Prop where
  operands : ∀ operand ∈ action.operands, operand.Natural
  fault : ∀ fault, action = .invalid fault → ∀ lhs rhs, fault.cause ≠ .sumOutOfRange lhs rhs

theorem LineFault.cause_ne_sum {line : Nat} {text : Line} {tokens : List Token} {fault : Fault}
    (drawn : LineFault line text tokens fault) (lhs rhs : Int64) :
    fault.cause ≠ .sumOutOfRange lhs rhs := by
  cases drawn <;> exact Cause.noConfusion

namespace Token

variable {token : Token} {line : Nat}

/-- The word that holds an integer holds the number itself, and never a negative one. -/
theorem integer_natural {value : Int64} (read : token.integer line = .ok value) :
    0 ≤ value.toInt := by
  rw [(token.integer_ok_iff line value).mp read]
  exact Int.natCast_nonneg _

theorem operand_natural {operand : Operand} (read : token.operand line = .ok operand) :
    operand.Natural := by
  rcases Form.operand_cases read with ⟨value, number, rfl⟩ | ⟨-, rfl⟩
  · exact integer_natural number
  · trivial

end Token

namespace Form

/-- No literal of a form is negative. -/
def LiteralsNatural (form : Form) : Prop :=
  ∀ operand ∈ form.operands, operand.Natural

theorem ofLine_literals (line : Nat) (text : Line) : (ofLine line text).LiteralsNatural := by
  intro operand mem
  obtain ⟨token, -, read⟩ := ofLine_readFrom line text operand mem
  exact Token.operand_natural read

/-- A line that is a statement of its own is a natural one. -/
theorem natural_of_ofLine {line : Nat} {text : Line} {action : Action}
    (form : ofLine line text = .action action) : action.Natural := by
  constructor
  · have literals := ofLine_literals line text
    rw [form] at literals
    exact literals
  · rintro fault rfl
    exact ((ofLine_drawn line text).fault fault (by rw [form]; rfl)).cause_ne_sum

end Form

/-! ## Statements that were read -/

namespace Stmt

/-- A statement of one line is natural. Of a statement with blocks nothing is said. -/
def Natural : Stmt → Prop
  | .action _ simple => simple.Natural
  | .loop _ _ _ _ | .branch _ _ _ | .choice _ _ _ _ => True

theorem natural_invalid {index : Nat} {fault : Fault}
    (other : ∀ lhs rhs, fault.cause ≠ .sumOutOfRange lhs rhs) :
    (onLine index (.invalid fault)).Natural := by
  constructor
  · intro operand mem
    cases mem
  · rintro _ ⟨⟩
    exact other

end Stmt

namespace Layout

variable {layout : Layout} {line limit : Nat}

theorem natural_refused {fault : Fault} {text : Line}
    (form : Form.ofLine line text = .opener (.refused fault)) :
    (Stmt.onLine line (.invalid fault)).Natural :=
  Stmt.natural_invalid
    ((Form.ofLine_drawn line text).fault fault (by rw [form]; rfl)).cause_ne_sum

theorem natural_unclosed {opener : Opener}
    (form : Form.ofLine line (layout.text line) = .opener opener) :
    (layout.unclosed line limit opener).1.Natural := by
  cases opener with
  | refused fault => exact natural_refused form
  | loop guard bound => exact Stmt.natural_invalid fun _ _ => Cause.noConfusion
  | branch test => exact Stmt.natural_invalid fun _ _ => Cause.noConfusion

theorem natural_captured {opener : Opener} {close : Spot}
    (form : Form.ofLine line (layout.text line) = .opener opener) :
    (layout.captured line limit close opener).1.Natural := by
  cases opener with
  | refused fault => exact natural_refused form
  | loop guard bound => trivial
  | branch test =>
      dsimp only [captured]
      split <;> trivial

/-- Whatever a line adds to a block is natural. -/
theorem natural_readLine {stmt : Stmt} (mem : stmt ∈ (layout.readLine line limit).1) :
    stmt.Natural := by
  cases form : Form.ofLine line (layout.text line) with
  | action action =>
      rw [readLine_action form, List.mem_singleton] at mem
      rw [mem]
      exact Form.natural_of_ofLine form
  | opener opener =>
      cases found : layout.blockEnd? line limit with
      | none =>
          rw [readLine_unclosed form found, List.mem_singleton] at mem
          rw [mem]
          exact natural_unclosed form
      | some close =>
          rw [readLine_captured form found] at mem
          rcases List.mem_cons.mp mem with rfl | behind
          · exact natural_captured form
          · rw [Option.mem_toList] at behind
            obtain ⟨text, pos, rfl⟩ := afterBlock_extra behind
            exact Stmt.natural_invalid fun _ _ => Cause.noConfusion

end Layout

/-- Every statement that is read from lines of a source is natural, at any depth. -/
theorem Source.natural_of_within {source : Source} {first stop : Nat} {stmt : Stmt}
    (within : stmt.Within (source.block first stop)) : stmt.Natural := by
  obtain ⟨line, limit, -, mem⟩ := Layout.within_block.mp within
  exact Layout.natural_readLine mem

/-! ## Steps -/

/-- Of integers that are not negative, a sum that is out of range is too large. -/
theorem addChecked_eq_none {lhs rhs : Int64} (left : 0 ≤ lhs.toInt) (right : 0 ≤ rhs.toInt) :
    addChecked lhs rhs = none ↔ (maxInteger : Int) < lhs.toInt + rhs.toInt := by
  have least : Int64.minValue.toInt = -9223372036854775808 := by decide
  have largest : Int64.maxValue.toInt = 9223372036854775807 := by decide
  have top : (maxInteger : Int) = 9223372036854775807 := rfl
  unfold addChecked
  dsimp only
  split
  · next range =>
    constructor
    · intro none
      cases none
    · intro large
      omega
  · next range =>
    constructor
    · intro _
      omega
    · intro _
      rfl

namespace Store

/-- No variable holds a negative value. -/
def Natural (store : Store) : Prop :=
  ∀ name value, store.get? name = some value → 0 ≤ value.toInt

variable {store : Store}

theorem natural_empty : Natural empty := by
  intro name value found
  rw [get?_empty] at found
  cases found

theorem Natural.set (natural : store.Natural) (name : String) {value : Int64}
    (notNegative : 0 ≤ value.toInt) : (store.set name value).Natural := by
  intro other held found
  rw [get?_set] at found
  split at found
  · cases found
    exact notNegative
  · exact natural other held found

theorem Natural.read (natural : store.Natural) {ref : VarRef} {value : Int64}
    (found : store.read ref = .ok value) : 0 ≤ value.toInt :=
  natural ref.name value (read_eq_ok.mp found)

theorem Natural.eval (natural : store.Natural) {operand : Operand} {value : Int64}
    (plain : operand.Natural) (found : store.eval operand = .ok value) : 0 ≤ value.toInt := by
  cases operand with
  | literal literal pos =>
      cases found
      exact plain
  | var ref => exact natural.read found

end Store

namespace Machine

variable {limits : Limits} {clock : Clock} {machine after : Machine} {task : Task}

/-- The values that are added are not negative. -/
theorem natural_summands {dest : VarRef} {lhs rhs : Operand} {left right : Int64}
    (store : machine.store.Natural) (natural : (Action.assign dest lhs rhs).Natural)
    (foundLeft : machine.store.eval lhs = .ok left)
    (foundRight : machine.store.eval rhs = .ok right) : 0 ≤ left.toInt ∧ 0 ≤ right.toInt :=
  ⟨store.eval (natural.operands lhs List.mem_cons_self) foundLeft,
    store.eval (natural.operands rhs (List.mem_cons_of_mem _ List.mem_cons_self)) foundRight⟩

theorem Acts.natural {action : Action} (acts : machine.Acts action after)
    (store : machine.store.Natural) (natural : action.Natural) : after.store.Natural := by
  cases acts with
  | blank => exact store
  | comment => exact store
  | printText text => exact store
  | printValue text found => exact store
  | declare name found =>
      exact store.set name (store.eval (natural.operands _ List.mem_cons_self) found)
  | assign dest foundLeft foundRight added =>
      have natural := natural_summands store natural foundLeft foundRight
      apply store.set dest.name
      rw [addChecked_eq_some added]
      omega

/-- A task keeps the values of the variables from being negative. -/
theorem natural_perform {tasks : List Task} (store : machine.store.Natural)
    (natural : task.owner.Natural) (done : machine.perform task = .ok (after, tasks)) :
    after.store.Natural := by
  cases performs_of_perform done with
  | act line acts => exact acts.natural store natural
  | loop line guard bound body => exact store
  | branch line block holds => exact store
  | choice line block other holds => exact store
  | test line bound body found => exact store

theorem natural_step {result : Except Fault (List Task)} (store : machine.store.Natural)
    (natural : task.owner.Natural) (stepped : machine.step limits clock task = (after, result)) :
    after.store.Natural := by
  cases result with
  | ok tasks => exact natural_perform (by exact store) natural (step_eq_ok stepped).2
  | error fault =>
      rw [step_eq_error stepped]
      exact store

/-- No variable is negative, and every task belongs to a tree of natural statements. -/
structure Tame (machine : Machine) (tasks : List Task) : Prop where
  store : machine.store.Natural
  tasks : ∃ stmts : List Stmt, (∀ stmt : Stmt, stmt.Within stmts → stmt.Natural) ∧
    OwnedBy stmts tasks

namespace Tame

variable {rest : List Task}

theorem nil (store : machine.store.Natural) : Tame machine [] := by
  refine ⟨store, [], ?_, ?_⟩
  · intro stmt within
    exact (Stmt.within_nil within).elim
  · intro task mem
    cases mem

theorem owner {tasks : List Task} (tame : Tame machine tasks) (mem : task ∈ tasks) :
    task.owner.Natural := by
  obtain ⟨stmts, natural, owned⟩ := tame.tasks
  exact natural _ (owned task mem)

theorem after_step {result : Except Fault (List Task)} (tame : Tame machine (task :: rest))
    (stepped : machine.step limits clock task = (after, result)) : after.store.Natural :=
  natural_step tame.store (tame.owner List.mem_cons_self) stepped

theorem step {tasks : List Task} (tame : Tame machine (task :: rest))
    (stepped : machine.step limits clock task = (after, .ok tasks)) :
    Tame after (tasks ++ rest) := by
  obtain ⟨stmts, natural, owned⟩ := tame.tasks
  exact ⟨tame.after_step stepped, stmts, natural, owned.step stepped⟩

end Tame

/-! ## States that can be reached -/

/-- The tasks of a call: statements that were read from lines of some source, a whole block of them
or any that stand in it. -/
def Called (tasks : List Task) : Prop :=
  ∃ (source : Source) (first stop : Nat) (stmts : List Stmt),
    tasks = Task.ofBlock stmts ∧ ∀ stmt ∈ stmts, stmt.Within (source.block first stop)

theorem Called.tame {tasks : List Task} (called : Called tasks) (store : machine.store.Natural) :
    Tame machine tasks := by
  obtain ⟨source, first, stop, stmts, rfl, within⟩ := called
  refine ⟨store, source.block first stop, fun _ => Source.natural_of_within, ?_⟩
  intro task mem
  obtain ⟨stmt, inStmts, rfl⟩ := List.mem_map.mp mem
  exact within stmt inStmts

/-- What a machine that begins with nothing can be brought into, with the tasks that are left of the
call that is being executed. A call may be made when no task of the one before is left, also after
a fault. -/
inductive Reached (limits : Limits) (clock : Clock) : Machine → List Task → Prop
  | fresh : Reached limits clock .initial []
  | call {machine tasks} (idle : Reached limits clock machine []) (called : Called tasks) :
      Reached limits clock machine tasks
  | step {machine task rest after tasks} (before : Reached limits clock machine (task :: rest))
      (stepped : machine.step limits clock task = (after, .ok tasks)) :
      Reached limits clock after (tasks ++ rest)
  | fail {machine task rest after fault} (before : Reached limits clock machine (task :: rest))
      (stepped : machine.step limits clock task = (after, .error fault)) :
      Reached limits clock after []

/-- The tasks that are left when a run of tasks has ended. -/
def Ending.left : Ending → List Task
  | .finished | .failed _ => []
  | .paused tasks => tasks

/-- Whatever `exec` comes to can be reached, whether it has been paused or not. -/
theorem Reached.exec {tasks : List Task} (reached : Reached limits clock machine tasks)
    (fuel : Nat) : Reached limits clock (exec limits clock fuel tasks machine).1
      (exec limits clock fuel tasks machine).2.left := by
  induction fuel generalizing tasks machine with
  | zero =>
      cases tasks with
      | nil => exact reached
      | cons task rest => exact reached
  | succ fuel ih =>
      match tasks with
      | [] => exact reached
      | task :: rest =>
          rw [Machine.exec]
          split
          · next stepped => exact reached.fail stepped
          · next stepped => exact ih (reached.step stepped)

theorem Reached.tame {tasks : List Task} (reached : Reached limits clock machine tasks) :
    Tame machine tasks := by
  induction reached with
  | fresh => exact .nil Store.natural_empty
  | call _ called ih => exact called.tame ih.store
  | step _ stepped ih => exact ih.step stepped
  | fail _ stepped ih => exact .nil (ih.after_step stepped)

/-- A value that is not negative is written with digits only. -/
theorem digits_of_natural {value : Int64} (notNegative : 0 ≤ value.toInt) :
    (toString value.toInt).toList ≠ [] ∧ ∀ c ∈ (toString value.toInt).toList, c.isDigit := by
  obtain ⟨number, same⟩ := Int.eq_ofNat_of_zero_le notNegative
  rw [same]
  change (Nat.repr number).toList ≠ [] ∧ ∀ c ∈ (Nat.repr number).toList, c.isDigit
  rw [Nat.toList_repr]
  exact ⟨Nat.toDigits_ne_nil, fun c mem => Nat.isDigit_of_mem_toDigits (by decide) (by decide) mem⟩

/-- Only an assignment takes a sum, of the values that its operands have. -/
theorem act_sumOutOfRange {action : Action} {lhs rhs : Int64} {pos : Pos}
    (natural : action.Natural)
    (failed : machine.act action = .error ⟨.sumOutOfRange lhs rhs, pos⟩) :
    ∃ dest left right, action = .assign dest left right ∧ machine.store.eval left = .ok lhs ∧
      machine.store.eval right = .ok rhs ∧ addChecked lhs rhs = none := by
  cases actFails_of_act failed with
  | missing used unread =>
      obtain ⟨ref, -, same⟩ := Store.eval_error unread
      cases same
  | sum dest foundLeft foundRight outside =>
      exact ⟨dest, _, _, rfl, foundLeft, foundRight, outside⟩
  | invalid => exact (natural.fault _ rfl lhs rhs rfl).elim

/-- A step that fails because of a sum has taken the sum of the operands of an assignment. -/
theorem step_sumOutOfRange {lhs rhs : Int64} {pos : Pos} (natural : task.owner.Natural)
    (failed : machine.step limits clock task = (after, .error ⟨.sumOutOfRange lhs rhs, pos⟩)) :
    ∃ line dest left right, task = .stmt (.action line (.assign dest left right)) ∧
      machine.store.eval left = .ok lhs ∧ machine.store.eval right = .ok rhs ∧
      addChecked lhs rhs = none := by
  cases allowed : Meter.refusal limits clock (Meter.next machine.steps) with
  | some cause =>
      rw [step_of_refusal allowed] at failed
      cases failed
      cases Meter.code_of_refusal allowed
  | none =>
      rw [step_of_allowed allowed, attempt] at failed
      split at failed
      · cases failed
      · next undone =>
        cases failed
        cases task with
        | stmt whole =>
            cases whole with
            | action line action =>
                obtain ⟨dest, left, right, rfl, sum⟩ :=
                  act_sumOutOfRange natural (error_of_map undone)
                exact ⟨line, dest, left, right, rfl, sum⟩
            | loop => cases undone
            | branch => cases Store.read_error (error_of_map (error_of_map undone))
            | choice => cases Store.read_error (error_of_map (error_of_map undone))
        | test => cases Store.read_error (error_of_map undone)

/-- A value that is printed is written behind its text. -/
theorem step_printValue {line : UInt32} {text : String} {value : Operand} {tasks : List Task}
    (stepped : machine.step limits clock (.stmt (.action line (.printValue text value))) =
      (after, .ok tasks)) :
    ∃ number, machine.store.eval value = .ok number ∧
      after.output = machine.output ++ [text ++ toString number.toInt] := by
  have done := (step_eq_ok stepped).2
  simp only [perform, act, tick_store] at done
  cases found : machine.store.eval value with
  | error fault =>
      rw [found] at done
      cases done
  | ok number =>
      rw [found] at done
      cases done
      exact ⟨number, rfl, output_print _ _⟩

end Machine

/-- No variable is negative, a value that is printed next is written with digits only, and a sum
that is out of range next is the sum of two integers that are not negative, and larger than the
largest integer. -/
structure Machine.NotNegative (limits : Limits) (clock : Clock) (machine : Machine)
    (tasks : List Task) : Prop where
  stored : ∀ name value, machine.store.get? name = some value →
    0 ≤ value.toInt ∧ value.toInt ≤ maxInteger
  printed : ∀ line text value rest after next,
    tasks = .stmt (.action line (.printValue text value)) :: rest →
    machine.step limits clock (.stmt (.action line (.printValue text value))) =
      (after, .ok next) →
    ∃ digits : List Char, digits ≠ [] ∧ (∀ c ∈ digits, c.isDigit) ∧
      after.output = machine.output ++ [text ++ String.ofList digits]
  sums : ∀ task rest after lhs rhs pos, tasks = task :: rest →
    machine.step limits clock task = (after, .error ⟨.sumOutOfRange lhs rhs, pos⟩) →
    0 ≤ lhs.toInt ∧ 0 ≤ rhs.toInt ∧ maxInteger < lhs.toInt + rhs.toInt

/-- Whatever statements a machine is made to execute, in whatever order and after whatever faults,
as long as each was read from a source, nothing negative comes up. -/
theorem reached_notNegative (limits : Limits) (clock : Clock) (machine : Machine)
    (tasks : List Task) (reached : machine.Reached limits clock tasks) :
    machine.NotNegative limits clock tasks := by
  have tame := reached.tame
  have store := tame.store
  constructor
  · intro name value found
    exact ⟨store name value found, Int64.toInt_le value⟩
  · rintro line text value rest after next rfl stepped
    obtain ⟨number, found, printed⟩ := Machine.step_printValue stepped
    have own : Action.Natural _ := tame.owner List.mem_cons_self
    have plain := own.operands value List.mem_cons_self
    obtain ⟨nonempty, digits⟩ := Machine.digits_of_natural (store.eval plain found)
    refine ⟨_, nonempty, digits, ?_⟩
    rw [String.ofList_toList]
    exact printed
  · rintro task rest after lhs rhs pos rfl failed
    have own := tame.owner List.mem_cons_self
    obtain ⟨line, dest, left, right, rfl, foundLeft, foundRight, outside⟩ :=
      Machine.step_sumOutOfRange own failed
    obtain ⟨notLeft, notRight⟩ := Machine.natural_summands store own foundLeft foundRight
    exact ⟨notLeft, notRight, (addChecked_eq_none notLeft notRight).mp outside⟩

/-- A sum that is out of range, and then another call to the machine that it has left behind. -/
theorem reached_notNegative_afterFault :
    let text := "var i = 9223372036854775807;\ni = i + 1;\nprint \"i=\" + i;"
    let source := Source.ofText text
    let failed := Machine.exec .standard .still 10 (Task.ofBlock (source.block 0 2)) .initial
    let again := Task.ofBlock (source.block 2 3)
    run .standard .still text = .fault ⟨.sumOutOfRange 9223372036854775807 1, ⟨1, 0⟩⟩ ∧
      failed.1.store.get? "i" = some 9223372036854775807 ∧
      failed.1.Reached .standard .still again ∧ failed.1.NotNegative .standard .still again := by
  intro text source failed again
  have overflow : run .standard .still text =
      .fault ⟨.sumOutOfRange 9223372036854775807 1, ⟨1, 0⟩⟩ := by decide +kernel
  have held : failed.1.store.get? "i" = some 9223372036854775807 := by decide +kernel
  have ended : failed.2.left = [] := List.isEmpty_iff.mp (by decide +kernel)
  have first : Machine.Called (Task.ofBlock (source.block 0 2)) :=
    ⟨source, 0, 2, _, rfl, fun stmt mem => .here mem⟩
  have stopped : failed.1.Reached .standard .still failed.2.left :=
    (Machine.Reached.fresh.call first).exec 10
  rw [ended] at stopped
  have reached : failed.1.Reached .standard .still again :=
    stopped.call ⟨source, 2, 3, _, rfl, fun stmt mem => .here mem⟩
  exact ⟨overflow, held, reached, reached_notNegative .standard .still failed.1 again reached⟩

end LineScript
