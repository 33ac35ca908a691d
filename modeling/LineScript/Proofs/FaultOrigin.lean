import LineScript.Proofs.Execution
import LineScript.Proofs.Listing
import LineScript.Proofs.FormFault

/-!
# Where faults come from

A run that fails has executed a statement of its program that raises the fault. What a statement
may raise can be read off the statement alone: the fault that it carries, a variable that it
refers to and that has no value, a sum that is out of range, or a charge at the start of its line
that the budget refuses. `Stmt.Raises` lists these, and `runBlock_origin` is the result.

The invariant is that every task belongs to a statement within the program. A task that is done
leaves behind only tasks of the same statement or of its blocks.
-/

namespace LineScript

namespace Stmt

/-- The variables that a statement refers to on its own line. -/
def refs : Stmt → List VarRef
  | action _ simple => simple.refs
  | loop _ guard _ _ => [guard]
  | branch _ test _ | choice _ test _ _ => [test.guard]

/-- The faults that a statement itself may raise, its blocks apart. -/
inductive Raises : Stmt → Fault → Prop
  | invalid {line fault} : Raises (.action line (.invalid fault)) fault
  | undeclared {stmt ref} (mem : ref ∈ stmt.refs) :
      Raises stmt ⟨.undeclared ref.name, ref.pos⟩
  | overflow {line dest lhs rhs} (left right : Int64) :
      Raises (.action line (.assign dest lhs rhs)) ⟨.sumOutOfRange left right, dest.pos⟩
  | budget {stmt cause} (code : cause.code = .budget) : Raises stmt ⟨cause, stmt.pos⟩

/-- What stands in a block of a statement within a tree stands within the tree. -/
theorem Within.block {outer inner : Stmt} {stmts block : List Stmt} (within : outer.Within stmts)
    (owned : block ∈ outer.blocks) (mem : inner ∈ block) : inner.Within stmts := by
  induction within with
  | here outerMem => exact .inside outerMem owned (.here mem)
  | inside farMem farOwned _ ih => exact .inside farMem farOwned ih

end Stmt

namespace Store

variable {store : Store} {fault : Fault}

theorem read_error {ref : VarRef} (h : store.read ref = .error fault) :
    fault = ⟨.undeclared ref.name, ref.pos⟩ :=
  (read_eq_error.mp h).2

theorem eval_error {operand : Operand} (h : store.eval operand = .error fault) :
    ∃ ref ∈ operand.refs, fault = ⟨.undeclared ref.name, ref.pos⟩ := by
  cases operand with
  | literal value pos => cases h
  | var ref => exact ⟨ref, List.mem_singleton.mpr rfl, read_error h⟩

end Store

/-- The statement that a task is part of. -/
def Task.owner : Task → Stmt
  | .stmt whole => whole
  | .test line guard bound body => .loop line guard bound body

@[simp] theorem Task.pos_owner (task : Task) : task.owner.pos = task.pos := by
  cases task <;> rfl

namespace Machine

variable {limits : Limits} {clock : Clock} {machine after : Machine} {task : Task} {fault : Fault}

/-- A variable of a value that a statement uses is one that the statement refers to. -/
theorem refs_of_operands {action : Action} {operand : Operand} (used : operand ∈ action.operands)
    {ref : VarRef} (mem : ref ∈ operand.refs) : ref ∈ action.refs := by
  cases action with
  | blank => cases used
  | comment => cases used
  | printText text => cases used
  | printValue text value =>
      cases List.mem_singleton.mp used
      exact mem
  | declare name value =>
      cases List.mem_singleton.mp used
      exact mem
  | assign dest lhs rhs =>
      apply List.mem_cons_of_mem
      rw [List.mem_append]
      rcases List.mem_cons.mp used with rfl | used
      · exact .inl mem
      · cases List.mem_singleton.mp used
        exact .inr mem
  | invalid fault => cases used

theorem act_error {action : Action} (line : UInt32) (h : machine.act action = .error fault) :
    (Stmt.action line action).Raises fault := by
  cases actFails_of_act h with
  | missing used unread =>
      obtain ⟨ref, inRefs, rfl⟩ := Store.eval_error unread
      exact .undeclared (refs_of_operands used inRefs)
  | sum dest foundLeft foundRight outside => exact .overflow _ _
  | invalid => exact .invalid

/-- A value that is used further fails only where it fails itself. -/
theorem error_of_map {α β : Type} {result : Except Fault α} {next : α → β}
    (h : result.map next = .error fault) : result = .error fault := by
  cases result with
  | ok value => cases h
  | error reason =>
      cases h
      rfl

/-- A task that cannot be done raises a fault of its statement. -/
theorem perform_error (h : machine.perform task = .error fault) : task.owner.Raises fault := by
  have unread {ref : VarRef} (mem : ref ∈ task.owner.refs)
      (failed : machine.store.read ref = .error fault) : task.owner.Raises fault := by
    rw [Store.read_error failed]
    exact .undeclared mem
  match task with
  | .stmt (.action line action) => exact act_error line (error_of_map h)
  | .stmt (.loop ..) => cases h
  | .stmt (.branch ..) =>
      exact unread (List.mem_singleton.mpr rfl) (error_of_map (error_of_map h))
  | .stmt (.choice ..) =>
      exact unread (List.mem_singleton.mpr rfl) (error_of_map (error_of_map h))
  | .test .. => exact unread (List.mem_singleton.mpr rfl) (error_of_map h)

/-- A task that has been done leaves tasks of its statement, or of the blocks of it. -/
theorem perform_owner {tasks : List Task} (h : machine.perform task = .ok (after, tasks)) :
    ∀ next ∈ tasks, next.owner = task.owner ∨
      ∃ block ∈ task.owner.blocks, next.owner ∈ block := by
  have of_block {block : List Stmt} (owned : block ∈ task.owner.blocks) :
      ∀ next ∈ Task.ofBlock block, ∃ block ∈ task.owner.blocks, next.owner ∈ block := by
    intro next mem
    obtain ⟨stmt, inBlock, rfl⟩ := List.mem_map.mp mem
    exact ⟨block, owned, inBlock⟩
  intro next mem
  cases performs_of_perform h with
  | act line acts => cases mem
  | loop line guard bound body =>
      cases List.mem_singleton.mp mem
      exact .inl rfl
  | @branch line block test yes holds =>
      cases yes with
      | true => exact .inr (of_block List.mem_cons_self next mem)
      | false => cases mem
  | @choice line block other test yes holds =>
      cases yes with
      | true => exact .inr (of_block List.mem_cons_self next mem)
      | false => exact .inr (of_block (List.mem_cons_of_mem _ List.mem_cons_self) next mem)
  | test line bound body found =>
      split at mem
      · rcases List.mem_append.mp mem with inBody | again
        · exact .inr (of_block List.mem_cons_self next inBody)
        · cases List.mem_singleton.mp again
          exact .inl rfl
      · cases mem

/-- A step that fails raises a fault of the statement of its task. -/
theorem step_error (h : machine.step limits clock task = (after, .error fault)) :
    task.owner.Raises fault := by
  cases allowed : Meter.refusal limits clock (Meter.next machine.steps) with
  | some cause =>
      rw [step_of_refusal allowed] at h
      cases h
      rw [← Task.pos_owner]
      exact .budget (Meter.code_of_refusal allowed)
  | none =>
      rw [step_of_allowed allowed, attempt] at h
      split at h
      · cases h
      · next failed =>
        cases h
        exact perform_error failed

/-- Every task belongs to a statement within a program. -/
def OwnedBy (stmts : List Stmt) (tasks : List Task) : Prop :=
  ∀ task ∈ tasks, Stmt.Within task.owner stmts

theorem ownedBy_ofBlock (stmts : List Stmt) : OwnedBy stmts (Task.ofBlock stmts) := by
  intro task mem
  obtain ⟨stmt, inBlock, rfl⟩ := List.mem_map.mp mem
  exact .here inBlock

/-- A step keeps the tasks within the program. -/
theorem OwnedBy.step {stmts : List Stmt} {tasks rest : List Task}
    (owned : OwnedBy stmts (task :: rest))
    (h : machine.step limits clock task = (after, .ok tasks)) : OwnedBy stmts (tasks ++ rest) := by
  have own := owned task List.mem_cons_self
  intro next mem
  rcases List.mem_append.mp mem with new | old
  · rcases perform_owner (step_eq_ok h).2 next new with same | ⟨block, inBlocks, inBlock⟩
    · rw [same]
      exact own
    · exact own.block inBlocks inBlock
  · exact owned next (List.mem_cons_of_mem _ old)

/-- An ending is explained by the statements of a program. -/
def Ending.ExplainedBy (stmts : List Stmt) : Ending → Prop
  | .finished => True
  | .failed fault => ∃ stmt, Stmt.Within stmt stmts ∧ stmt.Raises fault
  | .paused tasks => OwnedBy stmts tasks

theorem exec_explained {stmts : List Stmt} (limits : Limits) (clock : Clock) (fuel : Nat)
    (tasks : List Task) (machine : Machine) (owned : OwnedBy stmts tasks) :
    (exec limits clock fuel tasks machine).2.ExplainedBy stmts := by
  induction fuel generalizing tasks machine with
  | zero =>
      cases tasks with
      | nil => trivial
      | cons task rest => exact owned
  | succ fuel ih =>
      match tasks with
      | [] => trivial
      | task :: rest =>
          rw [exec]
          split
          · next stepped => exact ⟨task.owner, owned task List.mem_cons_self, step_error stepped⟩
          · next stepped => exact ih _ _ (owned.step stepped)

/-- A block that fails contains a statement that raises the fault. -/
theorem runBlock_origin {stmts : List Stmt}
    (h : runBlock limits clock stmts machine = (after, some fault)) :
    ∃ stmt, Stmt.Within stmt stmts ∧ stmt.Raises fault := by
  have explained := exec_explained limits clock (fuelFor limits machine.steps)
    (Task.ofBlock stmts) machine (ownedBy_ofBlock stmts)
  rw [runBlock, runTasks] at h
  split at h
  · cases h
  · next ended =>
    cases h
    rw [ended] at explained
    exact explained
  · next stopped left ended =>
    rw [ended] at explained
    cases left with
    | nil => cases h
    | cons task rest =>
        cases h
        refine ⟨task.owner, explained task List.mem_cons_self, ?_⟩
        show task.owner.Raises ⟨_, task.pos⟩
        rw [← Task.pos_owner]
        exact .budget rfl

end Machine

end LineScript
