import LineScript.Proofs.Moved
import LineScript.Proofs.Aside
import LineScript.Proofs.Execution

/-!
# Statements without their places

What a program does is decided by less than its statements say. `bare` takes away the places of the
statements, of what they refer to and of their faults, the text of a line that a fault quotes, and
the statements that are blank or a comment. Two blocks with the same bare statements end alike if
nothing limits the run: with the same lines, or with faults of one bare form.

The blocks are not executed in lockstep, because one may have blanks where the other has none. A
blank is a step of its own that does nothing but be counted, and without a limit nobody looks at
the count.
-/

namespace LineScript

def Cause.bare : Cause → Cause
  | .unknownForm _ => .unknownForm ""
  | cause => cause

def Fault.bare (fault : Fault) : Fault :=
  ⟨fault.cause.bare, .start⟩

/-- The labelling that takes every place away. -/
def Relabeling.bare : Relabeling where
  pos _ := .start
  fault := Fault.bare
  undeclared _ _ := rfl
  sumOutOfRange _ _ _ := rfl

def VarRef.bare (ref : VarRef) : VarRef :=
  ref.relabel .bare

/-- A comment is a blank. -/
def Action.bare : Action → Action
  | .comment => .blank
  | simple => simple.relabel .bare

def Test.bare (test : Test) : Test :=
  test.relabel .bare

def Opener.bare : Opener → Opener
  | .loop guard bound => .loop guard.bare bound
  | .branch test => .branch test.bare
  | .refused fault => .refused fault.bare

def Form.bare : Form → Form
  | .action simple => .action simple.bare
  | .opener opens => .opener opens.bare

/-- Openers with the same bare form are of one kind. -/
inductive Opener.Alike : Opener → Opener → Prop
  | loop {guard guard' : VarRef} (same : guard'.bare = guard.bare) (bound : Int64) :
      Alike (.loop guard bound) (.loop guard' bound)
  | branch {test test' : Test} (same : test'.bare = test.bare) :
      Alike (.branch test) (.branch test')
  | refused {fault fault' : Fault} (same : fault'.bare = fault.bare) :
      Alike (.refused fault) (.refused fault')

theorem Opener.alike_of_bare {opener opener' : Opener} (same : opener'.bare = opener.bare) :
    opener.Alike opener' := by
  cases opener with
  | loop guard bound =>
      cases opener' with
      | loop guard' bound' =>
          obtain ⟨guards, rfl⟩ := Opener.loop.inj same
          exact .loop guards bound'
      | branch test' => cases same
      | refused fault' => cases same
  | branch test =>
      cases opener' with
      | loop guard' bound' => cases same
      | branch test' => exact .branch (Opener.branch.inj same)
      | refused fault' => cases same
  | refused fault =>
      cases opener' with
      | loop guard' bound' => cases same
      | branch test' => cases same
      | refused fault' => exact .refused (Opener.refused.inj same)

/-- The group of a cause is not taken away. -/
@[simp] theorem Fault.code_bare (fault : Fault) : fault.bare.code = fault.code := by
  obtain ⟨cause, pos⟩ := fault
  cases cause <;> rfl

namespace Stmt

/-- Whether a statement is blank or a comment. -/
def isIdle : Stmt → Bool
  | .action _ .blank | .action _ .comment => true
  | _ => false

mutual

/-- A statement and its blocks without their places. -/
def bare : Stmt → Stmt
  | .action _ simple => .action 0 simple.bare
  | .loop _ guard bound body => .loop 0 guard.bare bound (allBare body)
  | .branch _ test block => .branch 0 test.bare (allBare block)
  | .choice _ test block other => .choice 0 test.bare (allBare block) (allBare other)

/-- Consecutive statements without their places, those without effect left out. -/
def allBare : List Stmt → List Stmt
  | [] => []
  | first :: rest => if first.isIdle then allBare rest else first.bare :: allBare rest

end

theorem allBare_eq (stmts : List Stmt) :
    allBare stmts = (stmts.filter fun stmt => !stmt.isIdle).map bare := by
  induction stmts with
  | nil => rfl
  | cons first rest ih =>
      rw [allBare, ih]
      cases idle : first.isIdle with
      | true => simp [idle]
      | false => simp [idle]

theorem isIdle_action (line : UInt32) (simple : Action) :
    (action line simple).isIdle = decide (simple.bare = .blank) := by
  cases simple <;> rfl

/-- A statement of one line is left out exactly if its bare form is blank. -/
theorem allBare_action (line : UInt32) (simple : Action) :
    allBare [action line simple] = if simple.bare = .blank then [] else [action 0 simple.bare] := by
  rw [allBare, allBare, isIdle_action]
  simp only [decide_eq_true_eq]
  rfl

theorem allBare_append (front back : List Stmt) :
    allBare (front ++ back) = allBare front ++ allBare back := by
  rw [allBare_eq, allBare_eq, allBare_eq, List.filter_append, List.map_append]

end Stmt

def Task.isIdle : Task → Bool
  | .stmt whole => whole.isIdle
  | .test .. => false

def Task.bare : Task → Task
  | .stmt whole => .stmt whole.bare
  | .test _ guard bound body => .test 0 guard.bare bound (Stmt.allBare body)

/-- Tasks without their places, those without effect left out. -/
def Task.allBare (tasks : List Task) : List Task :=
  (tasks.filter fun task => !task.isIdle).map bare

theorem Task.allBare_append (front back : List Task) :
    allBare (front ++ back) = allBare front ++ allBare back := by
  rw [allBare, List.filter_append, List.map_append]
  rfl

theorem Task.allBare_ofBlock (stmts : List Stmt) :
    allBare (ofBlock stmts) = ofBlock (Stmt.allBare stmts) := by
  rw [allBare, ofBlock, ofBlock, Stmt.allBare_eq, List.filter_map, List.map_map, List.map_map]
  rfl

/-! ## Steps -/

theorem Store.read_bare (store : Store) (ref : VarRef) :
    store.read ref.bare = (store.read ref).mapError Fault.bare :=
  store.read_relabel .bare ref

namespace Machine

theorem act_bare (machine : Machine) (action : Action) :
    machine.act action.bare = (machine.act action).mapError Fault.bare := by
  unfold Action.bare
  split
  · rfl
  · exact machine.act_relabel .bare action

theorem holds_bare (machine : Machine) (test : Test) :
    machine.holds test.bare = (machine.holds test).mapError Fault.bare :=
  machine.holds_relabel .bare test

/-- What doing a task gives, with the tasks that come next and the fault made bare. -/
def bareResult (result : Except Fault (Machine × List Task)) : Except Fault (Machine × List Task) :=
  (result.mapError Fault.bare).map fun done => (done.1, Task.allBare done.2)

theorem perform_bare (machine : Machine) (task : Task) :
    machine.perform task.bare = bareResult (machine.perform task) := by
  cases task with
  | stmt whole =>
      cases whole with
      | action line simple =>
          change (machine.act simple.bare).map _ = _
          rw [act_bare, perform]
          cases machine.act simple with
          | error fault => rfl
          | ok after => rfl
      | loop line guard bound body =>
          simp only [Task.bare, Stmt.bare, perform]
          rfl
      | branch line test block =>
          simp only [Task.bare, Stmt.bare, perform, holds_bare, ← Task.allBare_ofBlock]
          cases machine.holds test with
          | error fault => rfl
          | ok yes => cases yes <;> rfl
      | choice line test block other =>
          simp only [Task.bare, Stmt.bare, perform, holds_bare]
          cases machine.holds test with
          | error fault => rfl
          | ok yes =>
              cases yes with
              | true => simp [bareResult, mapError_ok, Except.map, Task.allBare_ofBlock]
              | false => simp [bareResult, mapError_ok, Except.map, Task.allBare_ofBlock]
  | test line guard bound body =>
      simp only [Task.bare, perform, Store.read_bare]
      cases machine.store.read guard with
      | error fault => rfl
      | ok value =>
          simp only [mapError_ok, Except.map, bareResult]
          split
          · rw [Task.allBare_append, Task.allBare_ofBlock]
            rfl
          · rfl

/-- The machine with another count of steps. -/
def counting (machine : Machine) (steps : Nat) : Machine :=
  { machine with steps }

theorem act_counting (machine : Machine) (steps : Nat) (action : Action) :
    (machine.counting steps).act action = (machine.act action).map (counting · steps) := by
  cases action with
  | blank => rfl
  | comment => rfl
  | printText text => rfl
  | printValue text value =>
      simp only [act, counting]
      cases machine.store.eval value with
      | error fault => rfl
      | ok number => rfl
  | declare name value =>
      simp only [act, counting]
      cases machine.store.eval value with
      | error fault => rfl
      | ok number => rfl
  | assign dest lhs rhs =>
      simp only [act, counting]
      cases machine.store.eval lhs with
      | error fault => rfl
      | ok left =>
          cases machine.store.eval rhs with
          | error fault => rfl
          | ok right =>
              dsimp only
              cases addChecked left right with
              | none => rfl
              | some sum => rfl
  | invalid fault => rfl

/-- What a task does has nothing to do with the count. -/
theorem perform_counting (machine : Machine) (steps : Nat) (task : Task) :
    (machine.counting steps).perform task =
      (machine.perform task).map fun done => (done.1.counting steps, done.2) := by
  have ask {α : Type} (answer : Except Fault α) (next : α → List Task) :
      (answer.map fun value => (machine.counting steps, next value)) =
        (answer.map fun value => (machine, next value)).map fun done =>
          (done.1.counting steps, done.2) := by
    cases answer <;> rfl
  cases task with
  | stmt whole =>
      cases whole with
      | action line simple =>
          rw [perform, perform, act_counting]
          cases machine.act simple with
          | error fault => rfl
          | ok after => rfl
      | loop line guard bound body => rfl
      | branch line test block => exact ask (machine.holds test) _
      | choice line test block other => exact ask (machine.holds test) _
  | test line guard bound body => exact ask (machine.store.read guard) _

/-- Doing `tasks` from a machine on that has the variables and the lines of `machine` ends with
those of `after`, if nothing limits it: without a fault, or with one of the bare form `fault`. -/
def Finishes (clock : Clock) (tasks : List Task) (machine after : Machine)
    (fault : Option Fault) : Prop :=
  ∀ steps, ∃ charged count own,
    Execution ⟨none, none⟩ clock tasks (machine.counting steps) charged (after.counting count)
      own ∧ own.map Fault.bare = fault

section

variable {clock : Clock} {task : Task} {tasks rest : List Task}
variable {machine next after : Machine} {fault : Option Fault}

theorem step_counting (steps : Nat) :
    (machine.counting steps).step ⟨none, none⟩ clock task =
      (machine.counting (Meter.next steps)).attempt task :=
  step_of_allowed rfl

theorem perform_of_attempt_error {reason : Fault}
    (failed : machine.attempt task = (after, .error reason)) :
    machine.perform task = .error reason := by
  unfold attempt at failed
  split at failed
  · cases failed
  · next result =>
    cases failed
    exact result

/-- A task without effect is done and forgotten. -/
theorem perform_idle (idle : task.isIdle = true) : machine.perform task = .ok (machine, []) := by
  unfold Task.isIdle at idle
  split at idle
  · unfold Stmt.isIdle at idle
    split at idle
    · rfl
    · rfl
    · cases idle
  · cases idle

/-- Tasks without effect may stand in front. -/
theorem Finishes.behind {idles : List Task} (finishes : Finishes clock tasks machine after fault)
    (without : ∀ task ∈ idles, task.isIdle = true) :
    Finishes clock (idles ++ tasks) machine after fault := by
  induction idles with
  | nil => exact finishes
  | cons idle idles ih =>
      intro steps
      obtain ⟨charged, count, own, execution, same⟩ :=
        ih (fun task mem => without task (List.mem_cons_of_mem _ mem)) (Meter.next steps)
      have stepped : (machine.counting steps).step ⟨none, none⟩ clock idle =
          (machine.counting (Meter.next steps), .ok []) := by
        rw [step_counting, attempt, perform_idle (without idle List.mem_cons_self)]
      exact ⟨_, count, own, .step stepped execution, same⟩

theorem Finishes.step (performed : machine.perform task = .ok (next, tasks))
    (finishes : Finishes clock (tasks ++ rest) next after fault) :
    Finishes clock (task :: rest) machine after fault := by
  intro steps
  obtain ⟨charged, count, own, execution, same⟩ := finishes (Meter.next steps)
  refine ⟨_, count, own, .step ?_ execution, same⟩
  rw [step_counting, attempt, perform_counting, performed]
  rfl

theorem Finishes.failed {reason : Fault} (failed : machine.perform task = .error reason) :
    Finishes clock (task :: rest) machine machine (some reason.bare) := by
  intro steps
  refine ⟨_, Meter.next steps, some reason, .failed ?_, rfl⟩
  rw [step_counting, attempt, perform_counting, failed]
  rfl

theorem Finishes.done (clock : Clock) (machine : Machine) :
    Finishes clock [] machine machine none :=
  fun steps => ⟨[], steps, none, .done _, rfl⟩

end

end Machine

namespace Task

variable {task : Task} {tasks rest : List Task}

theorem allBare_idle (idle : task.isIdle = true) : allBare (task :: rest) = allBare rest := by
  simp [allBare, idle]

theorem allBare_cons (active : task.isIdle = false) :
    allBare (task :: rest) = task.bare :: allBare rest := by
  simp [allBare, active]

theorem allBare_eq_nil : allBare tasks = [] ↔ ∀ task ∈ tasks, task.isIdle = true := by
  simp [allBare, List.filter_eq_nil_iff]

/-- The first of the bare tasks is that of the first task with an effect. -/
theorem exists_of_allBare_eq_cons (same : allBare tasks = task :: rest) :
    ∃ idles first later, tasks = idles ++ first :: later ∧
      (∀ idle ∈ idles, idle.isIdle = true) ∧ first.bare = task ∧ allBare later = rest := by
  obtain ⟨first, behind, filtered, bare, others⟩ := List.map_eq_cons_iff.mp same
  obtain ⟨idles, later, split, without, -, rfl⟩ := List.filter_eq_cons_iff.mp filtered
  refine ⟨idles, first, later, split, ?_, bare, others⟩
  intro idle mem
  simpa using without idle mem

end Task

namespace Machine

variable {clock : Clock} {task other : Task} {tasks others charged : List Task}
variable {machine next after : Machine} {fault : Option Fault}

/-- Tasks with the same bare form do the same. -/
theorem perform_of_bare (machine : Machine) (same : other.bare = task.bare) :
    bareResult (machine.perform other) = bareResult (machine.perform task) := by
  rw [← perform_bare, ← perform_bare, same]

theorem perform_ok_of_bare (same : other.bare = task.bare)
    (performed : machine.perform task = .ok (next, tasks)) :
    ∃ others, machine.perform other = .ok (next, others) ∧
      Task.allBare others = Task.allBare tasks := by
  have equal := perform_of_bare machine same
  rw [performed] at equal
  cases own : machine.perform other with
  | error fault =>
      rw [own] at equal
      cases equal
  | ok done =>
      obtain ⟨after, others⟩ := done
      rw [own] at equal
      have parts := Prod.mk.inj (Except.ok.inj equal)
      dsimp only at parts
      exact ⟨others, by rw [parts.1], parts.2⟩

theorem perform_error_of_bare {reason : Fault} (same : other.bare = task.bare)
    (failed : machine.perform task = .error reason) :
    ∃ own, machine.perform other = .error own ∧ own.bare = reason.bare := by
  have equal := perform_of_bare machine same
  rw [failed] at equal
  cases result : machine.perform other with
  | error own =>
      rw [result] at equal
      exact ⟨own, rfl, Except.error.inj equal⟩
  | ok done =>
      rw [result] at equal
      cases equal

/-- An execution without limits ends alike from all tasks with the same bare form. -/
theorem Execution.finishes
    (execution : Execution ⟨none, none⟩ clock tasks machine charged after fault)
    (same : Task.allBare others = Task.allBare tasks) :
    Finishes clock others machine after (fault.map Fault.bare) := by
  induction execution generalizing others with
  | done machine =>
      have finishes := (Finishes.done clock machine).behind (Task.allBare_eq_nil.mp same)
      rwa [List.append_nil] at finishes
  | @failed task rest machine after reason stepped =>
      rw [step_of_allowed rfl] at stepped
      have failed := perform_of_attempt_error stepped
      cases idle : task.isIdle with
      | true =>
          rw [perform_idle idle] at failed
          cases failed
      | false =>
          rw [Task.allBare_cons idle] at same
          obtain ⟨idles, first, later, rfl, without, bare, -⟩ :=
            Task.exists_of_allBare_eq_cons same
          obtain ⟨own, failed', equal⟩ := perform_error_of_bare bare failed
          have finishes : Finishes clock (first :: later) machine.tick machine.tick
              (some own.bare) := .failed failed'
          rw [equal] at finishes
          rw [attempt_eq_error stepped]
          exact finishes.behind without
  | @step task rest machine next tasks charged after fault stepped _ ih =>
      rw [step_of_allowed rfl] at stepped
      have performed := attempt_eq_ok stepped
      cases idle : task.isIdle with
      | true =>
          rw [perform_idle idle] at performed
          cases performed
          rw [Task.allBare_idle idle] at same
          exact ih same
      | false =>
          rw [Task.allBare_cons idle] at same
          obtain ⟨idles, first, later, rfl, without, bare, behind⟩ :=
            Task.exists_of_allBare_eq_cons same
          obtain ⟨others, performed', equal⟩ := perform_ok_of_bare bare performed
          have rest : Task.allBare (others ++ later) = Task.allBare (tasks ++ rest) := by
            rw [Task.allBare_append, Task.allBare_append, equal, behind]
          exact ((ih rest).step performed').behind without

end Machine

/-! ## Forms -/

section Forms

variable (rows : UInt32)

theorem Operand.bare_down (operand : Operand) :
    (operand.down rows).relabel .bare = operand.relabel .bare := by
  cases operand with
  | literal value pos => rfl
  | var ref => rfl

theorem Action.bare_down (simple : Action) : (simple.down rows).bare = simple.bare := by
  cases simple with
  | blank => rfl
  | comment => rfl
  | printText text => rfl
  | printValue text value => simp only [down, bare, relabel, Operand.bare_down]
  | declare name value => simp only [down, bare, relabel, Operand.bare_down]
  | assign dest lhs rhs =>
      simp only [down, bare, relabel, Operand.bare_down]
      rfl
  | invalid fault => rfl

theorem Form.bare_down (form : Form) : (form.down rows).bare = form.bare := by
  cases form with
  | action simple => exact congrArg Form.action (simple.bare_down rows)
  | opener opener =>
      cases opener with
      | loop guard bound => rfl
      | branch test => rfl
      | refused fault => rfl

end Forms

namespace Form

/-- Of a line that has no known form only the code matters. -/
theorem bare_unrecognised (line : Nat) (text other : Line) (tokens : List Token) :
    (unrecognised line other tokens).bare = (unrecognised line text tokens).bare := by
  unfold unrecognised
  split
  · rfl
  · split
    · rfl
    · rfl

theorem bare_ofCode (line line' : Nat) (text other : Line) (tokens : List Token) :
    (ofCode line' other tokens).bare = (ofCode line text tokens).bare := by
  have moved : UInt32.ofNatClamp line' =
      UInt32.ofNatClamp line + (UInt32.ofNatClamp line' - UInt32.ofNatClamp line) := by
    rw [UInt32.add_comm, UInt32.sub_add_cancel]
  rw [ofCode_down moved, bare_down, ofCode, ofCode]
  cases printText? tokens <|> printValue? line tokens <|> declare? line tokens <|>
      assign? line tokens <|> loop? line tokens <|> branch? line tokens <|>
      function? line tokens with
  | none => exact bare_unrecognised line text other tokens
  | some form => rfl

theorem ofLine_of_code {line : Nat} {text : Line} (code : scanCode text ≠ []) :
    ofLine line text = ofCode line text (scanCode text) := by
  rw [scanCode] at code ⊢
  unfold ofLine
  split
  · next scanned =>
    rw [scanned] at code
    exact (code rfl).elim
  · next first rest scanned =>
    rw [scanned] at code ⊢
    rw [if_neg]
    intro comment
    rw [codeTokens_cons_of_comment comment] at code
    exact code rfl

/-- The code of a line decides its form, wherever the line stands and whatever comment it has. -/
theorem bare_ofLine {text other : Line} (same : scanCode other = scanCode text)
    (line line' : Nat) : (ofLine line' other).bare = (ofLine line text).bare := by
  by_cases quiet : scanCode text = []
  · have bare {row : Line} (quiet : scanCode row = []) (index : Nat) :
        (ofLine index row).bare = .action .blank := by
      rcases ofLine_of_quiet quiet index with blank | comment
      · rw [blank]
        rfl
      · rw [comment]
        rfl
    rw [bare quiet, bare (same.trans quiet)]
  · rw [ofLine_of_code quiet, ofLine_of_code (by rwa [same]), same]
    exact bare_ofCode line line' text other _

end Form

end LineScript
