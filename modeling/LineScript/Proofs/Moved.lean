import LineScript.Proofs.FormRelabeling

/-!
# Statements further down

A statement carries the numbers of lines: its own, those of the variables it refers to and those of
the faults it may raise. `down` adds a number of rows to each of them and changes nothing else.

The recognised form of a line further down is its form moved down, as long as the line can be
counted. An execution does not look at the numbers: it prints the same lines and stores the same
values, and a fault that ends it is moved down with the statements.
-/

namespace LineScript

def Pos.down (rows : UInt32) (pos : Pos) : Pos :=
  ⟨pos.line + rows, pos.col⟩

def Fault.down (rows : UInt32) (fault : Fault) : Fault :=
  { fault with pos := fault.pos.down rows }

def VarRef.down (rows : UInt32) (ref : VarRef) : VarRef :=
  { ref with pos := ref.pos.down rows }

def Operand.down (rows : UInt32) : Operand → Operand
  | .literal value pos => .literal value (pos.down rows)
  | .var ref => .var (ref.down rows)

def Action.down (rows : UInt32) : Action → Action
  | .blank => .blank
  | .comment => .comment
  | .printText text => .printText text
  | .printValue text value => .printValue text (value.down rows)
  | .declare name value => .declare name (value.down rows)
  | .assign dest lhs rhs => .assign (dest.down rows) (lhs.down rows) (rhs.down rows)
  | .invalid fault => .invalid (fault.down rows)

def Test.down (rows : UInt32) (test : Test) : Test :=
  { test with guard := test.guard.down rows }

def Opener.down (rows : UInt32) : Opener → Opener
  | .loop guard bound => .loop (guard.down rows) bound
  | .branch test => .branch (test.down rows)
  | .refused fault => .refused (fault.down rows)

def Form.down (rows : UInt32) : Form → Form
  | .action simple => .action (simple.down rows)
  | .opener opens => .opener (opens.down rows)

namespace Stmt

mutual

/-- A statement and its blocks, moved down. -/
def down (rows : UInt32) : Stmt → Stmt
  | .action line simple => .action (line + rows) (simple.down rows)
  | .loop line guard bound body =>
    .loop (line + rows) (guard.down rows) bound (allDown rows body)
  | .branch line test block => .branch (line + rows) (test.down rows) (allDown rows block)
  | .choice line test block other =>
    .choice (line + rows) (test.down rows) (allDown rows block) (allDown rows other)

/-- Consecutive statements, moved down. -/
def allDown (rows : UInt32) : List Stmt → List Stmt
  | [] => []
  | first :: rest => first.down rows :: allDown rows rest

end

@[simp] theorem allDown_eq_map (rows : UInt32) (stmts : List Stmt) :
    allDown rows stmts = stmts.map (down rows) := by
  induction stmts with
  | nil => rfl
  | cons first rest ih => rw [allDown, ih, List.map_cons]

@[simp] theorem pos_down (rows : UInt32) (stmt : Stmt) :
    (stmt.down rows).pos = stmt.pos.down rows := by
  cases stmt <;> rfl

end Stmt

def Task.down (rows : UInt32) : Task → Task
  | .stmt whole => .stmt (whole.down rows)
  | .test line guard bound body =>
    .test (line + rows) (guard.down rows) bound (body.map (Stmt.down rows))

@[simp] theorem Task.pos_down (rows : UInt32) (task : Task) :
    (task.down rows).pos = task.pos.down rows := by
  cases task with
  | stmt whole => exact whole.pos_down rows
  | test line guard bound body => rfl

theorem Task.ofBlock_down (rows : UInt32) (stmts : List Stmt) :
    Task.ofBlock (stmts.map (Stmt.down rows)) = (Task.ofBlock stmts).map (Task.down rows) := by
  rw [ofBlock, ofBlock, List.map_map, List.map_map]
  rfl

def Machine.Ending.down (rows : UInt32) : Machine.Ending → Machine.Ending
  | .finished => .finished
  | .failed fault => .failed (fault.down rows)
  | .paused tasks => .paused (tasks.map (Task.down rows))

def Outcome.down (rows : UInt32) : Outcome → Outcome
  | .output lines => .output lines
  | .fault reason => .fault (reason.down rows)

/-! ## Execution -/

section Execution

variable (rows : UInt32)

/-- Moving down is a relabelling. -/
def Relabeling.down : Relabeling where
  pos := Pos.down rows
  fault := Fault.down rows
  undeclared _ _ := rfl
  sumOutOfRange _ _ _ := rfl

theorem Operand.down_eq_relabel (operand : Operand) :
    operand.down rows = operand.relabel (.down rows) := by
  cases operand <;> rfl

theorem Action.down_eq_relabel (simple : Action) :
    simple.down rows = simple.relabel (.down rows) := by
  cases simple <;> simp only [down, relabel, Operand.down_eq_relabel] <;> rfl

theorem Form.down_eq_relabel (form : Form) : form.down rows = form.relabel (.down rows) := by
  cases form with
  | action simple => exact congrArg Form.action (simple.down_eq_relabel rows)
  | opener opener => cases opener <;> rfl

theorem Store.read_down (store : Store) (ref : VarRef) :
    store.read (ref.down rows) = (store.read ref).mapError (Fault.down rows) :=
  store.read_relabel (.down rows) ref

namespace Machine

theorem act_down (machine : Machine) (action : Action) :
    machine.act (action.down rows) = (machine.act action).mapError (Fault.down rows) := by
  rw [Action.down_eq_relabel]
  exact machine.act_relabel (.down rows) action

theorem holds_down (machine : Machine) (test : Test) :
    machine.holds (test.down rows) = (machine.holds test).mapError (Fault.down rows) :=
  machine.holds_relabel (.down rows) test

/-- What doing a task gives, with the tasks that come next and the fault moved down. -/
def resultDown (result : Except Fault (Machine × List Task)) : Except Fault (Machine × List Task) :=
  (result.mapError (Fault.down rows)).map fun done => (done.1, done.2.map (Task.down rows))

theorem perform_down (machine : Machine) (task : Task) :
    machine.perform (task.down rows) = resultDown rows (machine.perform task) := by
  cases task with
  | stmt whole =>
      cases whole with
      | action line simple =>
          change (machine.act (simple.down rows)).map _ = _
          rw [act_down, perform]
          cases machine.act simple with
          | error fault => rfl
          | ok after => rfl
      | loop line guard bound body =>
          simp only [Task.down, Stmt.down, perform, Stmt.allDown_eq_map]
          rfl
      | branch line test block =>
          simp only [Task.down, Stmt.down, perform, Stmt.allDown_eq_map, holds_down,
            Task.ofBlock_down]
          cases machine.holds test with
          | error fault => rfl
          | ok yes => cases yes <;> rfl
      | choice line test block other =>
          simp only [Task.down, Stmt.down, perform, Stmt.allDown_eq_map, holds_down]
          cases machine.holds test with
          | error fault => rfl
          | ok yes =>
              cases yes with
              | true => simp [resultDown, mapError_ok, Except.map, Task.ofBlock_down]
              | false => simp [resultDown, mapError_ok, Except.map, Task.ofBlock_down]
  | test line guard bound body =>
      simp only [Task.down, perform, Store.read_down]
      cases machine.store.read guard with
      | error fault => rfl
      | ok value =>
          simp only [mapError_ok, Except.map, resultDown, Task.ofBlock_down]
          split
          · simp [Task.down]
          · rfl

variable {limits : Limits} {clock : Clock}

/-- The charge does not look at the line, and a fault is moved down with its task. -/
theorem step_down (machine : Machine) (task : Task) :
    machine.step limits clock (task.down rows) =
      ((machine.step limits clock task).1,
        ((machine.step limits clock task).2.mapError (Fault.down rows)).map
          (List.map (Task.down rows))) := by
  simp only [step, Meter.charge, Task.pos_down]
  cases Meter.refusal limits clock (Meter.next machine.steps) with
  | some cause => rfl
  | none =>
      simp only [Option.map_none, perform_down]
      cases ({ machine with steps := Meter.next machine.steps } : Machine).perform task with
      | error fault => rfl
      | ok done => rfl

/-- Tasks that are moved down are executed alike, and end alike. -/
theorem exec_down (fuel : Nat) (tasks : List Task) (machine : Machine) :
    exec limits clock fuel (tasks.map (Task.down rows)) machine =
      ((exec limits clock fuel tasks machine).1,
        (exec limits clock fuel tasks machine).2.down rows) := by
  induction fuel generalizing tasks machine with
  | zero =>
      cases tasks with
      | nil => rfl
      | cons task rest => rfl
  | succ fuel ih =>
      cases tasks with
      | nil => rfl
      | cons task rest =>
          rw [List.map_cons, exec, exec, step_down]
          obtain ⟨after, result⟩ := machine.step limits clock task
          cases result with
          | error fault => rfl
          | ok tasks =>
              change exec limits clock fuel
                (tasks.map (Task.down rows) ++ rest.map (Task.down rows)) after = _
              rw [← List.map_append, ih]

theorem runBlock_down (stmts : List Stmt) (machine : Machine) :
    runBlock limits clock (stmts.map (Stmt.down rows)) machine =
      ((runBlock limits clock stmts machine).1,
        (runBlock limits clock stmts machine).2.map (Fault.down rows)) := by
  rw [runBlock, runBlock, runTasks, runTasks, Task.ofBlock_down, exec_down]
  obtain ⟨after, ending⟩ :=
    exec limits clock (fuelFor limits machine.steps) (Task.ofBlock stmts) machine
  cases ending with
  | finished => rfl
  | failed fault => rfl
  | paused tasks =>
      simp only [Ending.down, List.head?_map, Option.map_map]
      congr 1
      congr 1
      funext task
      simp [Fault.down]

end Machine

/-- A program that is moved down has the same outcome, further down. -/
theorem Outcome.ofEnd_down (limits : Limits) (clock : Clock) (stmts : List Stmt) :
    Outcome.ofEnd (Machine.runBlock limits clock (stmts.map (Stmt.down rows)) .initial) =
      (Outcome.ofEnd (Machine.runBlock limits clock stmts .initial)).down rows := by
  rw [Machine.runBlock_down]
  obtain ⟨after, stopped⟩ := Machine.runBlock limits clock stmts .initial
  cases stopped with
  | none => rfl
  | some fault => rfl

end Execution

/-! ## Forms -/

section Forms

variable {rows : UInt32} {line line' : Nat}
  (moved : UInt32.ofNatClamp line' = UInt32.ofNatClamp line + rows)

include moved

theorem Pos.clamped_down (col : Nat) : clamped line' col = (clamped line col).down rows := by
  rw [clamped, clamped, moved]
  rfl

theorem Relabeling.moves_down : (Relabeling.down rows).Moves line line' id where
  kind _ := rfl
  text _ := rfl
  pos token := Pos.clamped_down moved token.col
  literal _ _ := rfl
  function _ _ := rfl

theorem Relabeling.rewords_down (text : Line) :
    (Relabeling.down rows).Rewords line text line' text where
  unknown := congrArg (Fault.mk _) (Pos.clamped_down moved 0).symm
  unterminated := congrArg (Fault.mk _) (Pos.clamped_down moved (trimEnd text).length).symm

namespace Form

theorem ofCode_down (text : Line) (tokens : List Token) :
    ofCode line' text tokens = (ofCode line text tokens).down rows := by
  have relabelled :=
    (Relabeling.moves_down moved).ofCode (Relabeling.rewords_down moved text) tokens
  rw [List.map_id] at relabelled
  rw [relabelled, down_eq_relabel]

/-- A line further down has the same form, further down. -/
theorem ofLine_down (text : Line) : ofLine line' text = (ofLine line text).down rows := by
  have relabelled :=
    (Relabeling.moves_down moved).ofTokens (Relabeling.rewords_down moved text) (scan text)
  rw [List.map_id] at relabelled
  rw [ofLine_eq, ofLine_eq, relabelled, down_eq_relabel]

end Form

end Forms

end LineScript
