import LineScript.Proofs.Passage

/-!
# The footprint of a block

All variables live in one table, but a block depends only on those that occur in it. Two machines
that have counted as many steps and agree on the variables of a block run it abreast: they do the
same tasks, print the same lines, and end in the same way, in states that agree on these variables
again. What else the tables hold, and what was printed before, makes no difference. And a variable
that the block nowhere gives a value is left as it was.

`Machine.Abreast` is the relation between the two machines. One step keeps it, hence a run does,
through loops and branches and up to a fault.
-/

namespace LineScript

/-! ## The variables of a tree -/

/-- The variable that a statement of one line gives a value. -/
def Action.target? : Action → Option String
  | .declare name _ => some name
  | .assign dest _ _ => some dest.name
  | .blank | .comment | .printText _ | .printValue _ _ | .invalid _ => none

namespace Stmt

/-- The variable that a statement gives a value, its blocks apart. -/
def target? : Stmt → Option String
  | action _ simple => simple.target?
  | loop _ _ _ _ | branch _ _ _ | choice _ _ _ _ => none

/-- A variable is given a value somewhere in a tree. -/
def Writes (stmts : List Stmt) (name : String) : Prop :=
  ∃ stmt, Within stmt stmts ∧ stmt.target? = some name

/-- A variable occurs somewhere in a tree. -/
def Mentions (stmts : List Stmt) (name : String) : Prop :=
  ∃ stmt, Within stmt stmts ∧ ((∃ ref ∈ stmt.refs, ref.name = name) ∨ stmt.target? = some name)

instance (stmts : List Stmt) (name : String) : Decidable (Writes stmts name) :=
  decidable_of_iff (∃ stmt ∈ allInOrder stmts, stmt.target? = some name)
    (by simp only [Writes, mem_allInOrder])

instance (stmts : List Stmt) (name : String) : Decidable (Mentions stmts name) :=
  decidable_of_iff (∃ stmt ∈ allInOrder stmts,
      (∃ ref ∈ stmt.refs, ref.name = name) ∨ stmt.target? = some name)
    (by simp only [Mentions, mem_allInOrder])

theorem mentions_of_ref {stmts : List Stmt} {stmt : Stmt} (within : Within stmt stmts)
    {ref : VarRef} (mem : ref ∈ stmt.refs) : Mentions stmts ref.name :=
  ⟨stmt, within, .inl ⟨ref, mem, rfl⟩⟩

end Stmt

/-! ## Results that correspond -/

/-- Two results are the same fault, or values that correspond. -/
inductive SameResult {α : Type} (corresponds : α → α → Prop) :
    Except Fault α → Except Fault α → Prop
  | fault (fault) : SameResult corresponds (.error fault) (.error fault)
  | value {left right} (same : corresponds left right) :
      SameResult corresponds (.ok left) (.ok right)

theorem SameResult.map {α β : Type} {corresponds : α → α → Prop} {other : β → β → Prop}
    {left right : Except Fault α} {next next' : α → β} (same : SameResult corresponds left right)
    (carried : ∀ a b, corresponds a b → other (next a) (next' b)) :
    SameResult other (left.map next) (right.map next') := by
  cases same with
  | fault fault => exact .fault fault
  | value same => exact .value (carried _ _ same)

namespace Machine

/-! ## Two machines abreast -/

/-- Two machines agree on some variables, have counted as many steps, and have printed the same
lines since their outputs were `first` and `second`. -/
structure Abreast (names : String → Prop) (first second : List String) (left right : Machine) :
    Prop where
  store : ∀ name, names name → left.store.get? name = right.store.get? name
  steps : left.steps = right.steps
  printed : ∃ lines, left.output = first ++ lines ∧ right.output = second ++ lines

section Lockstep

variable {names : String → Prop} {first second : List String} {left right : Machine} {task : Task}

namespace Abreast

theorem start (steps : left.steps = right.steps)
    (store : ∀ name, names name → left.store.get? name = right.store.get? name) :
    Abreast names left.output right.output left right :=
  ⟨store, steps, [], by rw [List.append_nil], by rw [List.append_nil]⟩

variable (abreast : Abreast names first second left right)

include abreast

theorem tick : Abreast names first second left.tick right.tick :=
  ⟨abreast.store, congrArg Meter.next abreast.steps, abreast.printed⟩

theorem print (line : String) :
    Abreast names first second (left.print line) (right.print line) := by
  obtain ⟨lines, onLeft, onRight⟩ := abreast.printed
  refine ⟨abreast.store, abreast.steps, lines ++ [line], ?_, ?_⟩
  · rw [output_print, onLeft, List.append_assoc]
  · rw [output_print, onRight, List.append_assoc]

theorem set (name : String) (value : Int64) :
    Abreast names first second (left.set name value) (right.set name value) := by
  refine ⟨fun other named => ?_, abreast.steps, abreast.printed⟩
  change (left.store.set name value).get? other = (right.store.set name value).get? other
  rw [Store.get?_set, Store.get?_set, abreast.store other named]

theorem read {ref : VarRef} (named : names ref.name) :
    left.store.read ref = right.store.read ref := by
  rw [Store.read, Store.read, abreast.store ref.name named]

theorem eval {operand : Operand} (named : ∀ ref ∈ operand.refs, names ref.name) :
    left.store.eval operand = right.store.eval operand := by
  cases operand with
  | literal value pos => rfl
  | var ref => exact abreast.read (named ref (List.mem_singleton.mpr rfl))

theorem holds {test : Test} (named : names test.guard.name) :
    left.holds test = right.holds test := by
  rw [Machine.holds, Machine.holds, abreast.read named]

/-- A statement of one line does the same to both. -/
theorem act {action : Action} (named : ∀ ref ∈ action.refs, names ref.name) :
    SameResult (Abreast names first second) (left.act action) (right.act action) := by
  have evalSame {operand : Operand} (used : operand ∈ action.operands) :
      left.store.eval operand = right.store.eval operand := by
    apply abreast.eval
    intro ref mem
    exact named ref (refs_of_operands used mem)
  cases action with
  | blank => exact .value abreast
  | comment => exact .value abreast
  | printText text => exact .value (abreast.print text)
  | printValue text value =>
      simp only [Machine.act, evalSame List.mem_cons_self]
      cases right.store.eval value with
      | error fault => exact .fault fault
      | ok number => exact .value (abreast.print _)
  | declare name value =>
      simp only [Machine.act, evalSame List.mem_cons_self]
      cases right.store.eval value with
      | error fault => exact .fault fault
      | ok number => exact .value (abreast.set name number)
  | assign dest lhs rhs =>
      simp only [Machine.act, evalSame List.mem_cons_self,
        evalSame (List.mem_cons_of_mem _ List.mem_cons_self)]
      cases right.store.eval lhs with
      | error fault => exact .fault fault
      | ok lhs =>
          cases right.store.eval rhs with
          | error fault => exact .fault fault
          | ok rhs =>
              dsimp only
              cases addChecked lhs rhs with
              | none => exact .fault _
              | some sum => exact .value (abreast.set dest.name sum)
  | invalid fault => exact .fault fault

/-- A task does the same to both and gives the same tasks. -/
theorem perform (named : ∀ ref ∈ task.owner.refs, names ref.name) :
    SameResult (fun onLeft onRight => onLeft.2 = onRight.2 ∧
        Abreast names first second onLeft.1 onRight.1)
      (left.perform task) (right.perform task) := by
  match task with
  | .stmt (.action line action) =>
      exact (abreast.act named).map fun _ _ same => ⟨rfl, same⟩
  | .stmt (.loop line guard bound body) => exact .value ⟨rfl, abreast⟩
  | .stmt (.branch line test block) =>
      rw [Machine.perform, Machine.perform, abreast.holds (named _ List.mem_cons_self)]
      cases right.holds test with
      | error fault => exact .fault fault
      | ok yes => exact .value ⟨rfl, abreast⟩
  | .stmt (.choice line test block other) =>
      rw [Machine.perform, Machine.perform, abreast.holds (named _ List.mem_cons_self)]
      cases right.holds test with
      | error fault => exact .fault fault
      | ok yes => exact .value ⟨rfl, abreast⟩
  | .test line guard bound body =>
      rw [Machine.perform, Machine.perform, abreast.read (named _ List.mem_cons_self)]
      cases right.store.read guard with
      | error fault => exact .fault fault
      | ok value => exact .value ⟨rfl, abreast⟩

/-- Both take a step in the same way and are abreast again. -/
theorem step (limits : Limits) (clock : Clock)
    (named : ∀ ref ∈ task.owner.refs, names ref.name) :
    (left.step limits clock task).2 = (right.step limits clock task).2 ∧
      Abreast names first second (left.step limits clock task).1
        (right.step limits clock task).1 := by
  have counted : Meter.next left.steps = Meter.next right.steps :=
    congrArg Meter.next abreast.steps
  cases allowed : Meter.refusal limits clock (Meter.next right.steps) with
  | some cause =>
      rw [step_of_refusal allowed, step_of_refusal (counted ▸ allowed)]
      exact ⟨rfl, abreast.tick⟩
  | none =>
      rw [step_of_allowed allowed, step_of_allowed (counted ▸ allowed), attempt, attempt]
      have same := abreast.tick.perform named
      generalize left.tick.perform task = onLeft at same
      generalize right.tick.perform task = onRight at same
      cases same with
      | fault fault => exact ⟨rfl, abreast.tick⟩
      | value same => exact ⟨congrArg Except.ok same.1, same.2⟩

end Abreast

variable {stmts : List Stmt} {tasks rest : List Task} (limits : Limits) (clock : Clock)

/-- The variables of the next task are among those of its tree. -/
theorem Abreast.next (abreast : Abreast (Stmt.Mentions stmts) first second left right)
    (owned : OwnedBy stmts (task :: rest)) :
    (left.step limits clock task).2 = (right.step limits clock task).2 ∧
      Abreast (Stmt.Mentions stmts) first second (left.step limits clock task).1
        (right.step limits clock task).1 := by
  apply abreast.step limits clock
  intro ref mem
  exact Stmt.mentions_of_ref (owned task List.mem_cons_self) mem

/-- Two machines do the same tasks of a tree as long as the fuel lasts. -/
theorem Abreast.exec (abreast : Abreast (Stmt.Mentions stmts) first second left right)
    (owned : OwnedBy stmts tasks) (fuel : Nat) :
    (exec limits clock fuel tasks left).2 = (exec limits clock fuel tasks right).2 ∧
      Abreast (Stmt.Mentions stmts) first second (exec limits clock fuel tasks left).1
        (exec limits clock fuel tasks right).1 := by
  induction fuel generalizing tasks left right with
  | zero => cases tasks <;> exact ⟨rfl, abreast⟩
  | succ fuel ih =>
      match tasks with
      | [] => exact ⟨rfl, abreast⟩
      | task :: rest =>
          obtain ⟨sameResult, abreastAfter⟩ := abreast.next limits clock owned
          rw [Machine.exec, Machine.exec]
          cases onLeft : left.step limits clock task with
          | mk afterLeft result =>
              cases onRight : right.step limits clock task with
              | mk afterRight result' =>
                  rw [onLeft, onRight] at sameResult abreastAfter
                  cases sameResult
                  cases result with
                  | error fault => exact ⟨rfl, abreastAfter⟩
                  | ok tasks => exact ih abreastAfter (owned.step onLeft)

/-- Without fuel the one execution is the other. -/
theorem Abreast.execution (abreast : Abreast (Stmt.Mentions stmts) first second left right)
    (owned : OwnedBy stmts tasks) {charged : List Task} {after : Machine} {fault : Option Fault}
    (execution : Execution limits clock tasks left charged after fault) :
    ∃ other, Execution limits clock tasks right charged other fault ∧
      Abreast (Stmt.Mentions stmts) first second after other := by
  induction execution generalizing right with
  | done machine => exact ⟨right, .done right, abreast⟩
  | failed stepped =>
      obtain ⟨sameResult, abreastAfter⟩ := abreast.next limits clock owned
      rw [stepped] at sameResult abreastAfter
      exact ⟨_, .failed (Prod.ext rfl sameResult.symm), abreastAfter⟩
  | step stepped _ ih =>
      obtain ⟨sameResult, abreastAfter⟩ := abreast.next limits clock owned
      rw [stepped] at sameResult abreastAfter
      obtain ⟨other, later, abreastLast⟩ := ih abreastAfter (owned.step stepped)
      exact ⟨other, .step (Prod.ext rfl sameResult.symm) later, abreastLast⟩

theorem Abreast.runBlock (abreast : Abreast (Stmt.Mentions stmts) first second left right) :
    (runBlock limits clock stmts left).2 = (runBlock limits clock stmts right).2 ∧
      Abreast (Stmt.Mentions stmts) first second (runBlock limits clock stmts left).1
        (runBlock limits clock stmts right).1 := by
  rw [Machine.runBlock, Machine.runBlock, runTasks, runTasks, abreast.steps]
  obtain ⟨sameEnding, abreastAfter⟩ :=
    abreast.exec limits clock (ownedBy_ofBlock stmts) (fuelFor limits right.steps)
  cases onLeft : Machine.exec limits clock (fuelFor limits right.steps) (Task.ofBlock stmts) left with
  | mk afterLeft ending =>
      cases onRight :
          Machine.exec limits clock (fuelFor limits right.steps) (Task.ofBlock stmts) right with
      | mk afterRight ending' =>
          rw [onLeft, onRight] at sameEnding abreastAfter
          cases sameEnding
          cases ending <;> exact ⟨rfl, abreastAfter⟩

end Lockstep

/-! ## What a block leaves alone -/

/-- A statement of one line gives a value to no variable but its own. -/
theorem Acts.get?_eq {machine after : Machine} {action : Action}
    (acts : machine.Acts action after) {name : String} (other : action.target? ≠ some name) :
    after.store.get? name = machine.store.get? name := by
  have unset {target : String} {value : Int64} (different : target ≠ name) :
      (machine.set target value).store.get? name = machine.store.get? name := by
    change (machine.store.set target value).get? name = _
    rw [Store.get?_set, if_neg different]
  cases acts with
  | blank => rfl
  | comment => rfl
  | printText text => rfl
  | printValue text found => rfl
  | declare target found => exact unset fun same => other (congrArg some same)
  | assign dest foundLeft foundRight added => exact unset fun same => other (congrArg some same)

/-- A variable that a tree does not write is kept by every step. -/
theorem keeps_unwritten (limits : Limits) (clock : Clock) {stmts : List Stmt} {name : String}
    (unwritten : ¬ Stmt.Writes stmts name) (value : Option Int64) :
    Keeps limits clock stmts fun machine => machine.store.get? name = value := by
  refine Keeps.of_acts (fun machine held => held) ?_
  intro line action machine after within acts held
  rw [acts.get?_eq fun target => unwritten ⟨_, within, target⟩]
  exact held

/-- Two machines execute a block in the same way, and what the block does not write stays as it
was. -/
structure RunAbreast (limits : Limits) (clock : Clock) (stmts : List Stmt)
    (left right : Machine) : Prop where
  /-- Both succeed, or both end with the same fault. -/
  result : (runBlock limits clock stmts left).2 = (runBlock limits clock stmts right).2
  /-- Both print the same lines, have counted as many steps, and agree on the variables of the
  block again. -/
  after : Abreast (Stmt.Mentions stmts) left.output right.output
    (runBlock limits clock stmts left).1 (runBlock limits clock stmts right).1
  /-- Without fuel, the one has an execution if the other has, and the same tasks are charged. -/
  execution : ∀ charged fault,
    (∃ onLeft, Execution limits clock (Task.ofBlock stmts) left charged onLeft fault) ↔
      ∃ onRight, Execution limits clock (Task.ofBlock stmts) right charged onRight fault
  executed : ∀ charged fault onLeft onRight,
    Execution limits clock (Task.ofBlock stmts) left charged onLeft fault →
    Execution limits clock (Task.ofBlock stmts) right charged onRight fault →
    Abreast (Stmt.Mentions stmts) left.output right.output onLeft onRight
  unwritten : ∀ name, ¬ Stmt.Writes stmts name →
    (runBlock limits clock stmts left).1.store.get? name = left.store.get? name ∧
    ∀ charged after fault, Execution limits clock (Task.ofBlock stmts) left charged after fault →
      after.store.get? name = left.store.get? name

end Machine

/-- A block reads only the variables that occur in it, and it gives a value only to those that it
writes. Two machines that have counted as many steps and agree on the variables of the block cannot
be told apart by what it does next. -/
theorem block_runsAbreast (limits : Limits) (clock : Clock) (stmts : List Stmt)
    (left right : Machine) (steps : left.steps = right.steps)
    (agree : ∀ name, Stmt.Mentions stmts name → left.store.get? name = right.store.get? name) :
    Machine.RunAbreast limits clock stmts left right := by
  have abreast := Machine.Abreast.start steps agree
  have reversed := Machine.Abreast.start steps.symm fun name named => (agree name named).symm
  have owned := Machine.ownedBy_ofBlock stmts
  constructor
  case result => exact (abreast.runBlock limits clock).1
  case after => exact (abreast.runBlock limits clock).2
  case execution =>
    intro charged fault
    constructor
    · rintro ⟨onLeft, execution⟩
      obtain ⟨onRight, other, -⟩ := abreast.execution limits clock owned execution
      exact ⟨onRight, other⟩
    · rintro ⟨onRight, execution⟩
      obtain ⟨onLeft, other, -⟩ := reversed.execution limits clock owned execution
      exact ⟨onLeft, other⟩
  case executed =>
    intro charged fault onLeft onRight first second
    obtain ⟨other, execution, same⟩ := abreast.execution limits clock owned first
    obtain ⟨-, rfl, -⟩ := second.deterministic execution
    exact same
  case unwritten =>
    intro name unwritten
    have kept := Machine.keeps_unwritten limits clock unwritten (left.store.get? name)
    exact ⟨kept.runBlock rfl, fun _ _ _ execution => kept.execution owned rfl execution⟩

/-- A loop that counts and prints, in a machine that has done nothing else and in one with another
variable and another line. -/
theorem block_runsAbreast_besideOther :
    let stmts := (Source.ofText
      ("while i < 3 \x7b\nif i > 1 \x7b\nvar j = i;\n\x7d\n" ++
        "i = i + 1;\nprint \"i=\" + i;\n\x7d")).block 0 7
    let left := Machine.initial.set "i" 0
    let right := (left.set "k" 5).print "k"
    left.steps = right.steps ∧
      (∀ name, Stmt.Mentions stmts name → left.store.get? name = right.store.get? name) ∧
      Machine.RunAbreast .standard .still stmts left right := by
  intro stmts left right
  have agree : ∀ name, Stmt.Mentions stmts name →
      left.store.get? name = right.store.get? name := by
    intro name mentioned
    change left.store.get? name = (left.store.set "k" 5).get? name
    have absent : ¬ Stmt.Mentions stmts "k" := by decide +kernel
    rw [Store.get?_set, if_neg]
    rintro rfl
    exact absent mentioned
  exact ⟨rfl, agree, block_runsAbreast .standard .still stmts left right rfl agree⟩

end LineScript
