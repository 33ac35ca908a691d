import LineScript.Run

/-!
# Statements with other places

A statement carries places: those of the variables it refers to, of its operands and of the faults
it may raise. A `Relabeling` gives them other ones. It may change faults in more than their place,
but not those that an execution raises of itself, a variable without a value and a sum that is too
large: only their places change, as the places in the statements do.

Executing a statement of one line or a test does not look at the places. With other labels it does
the same, and a fault that it raises is relabelled.
-/

namespace LineScript

/-- Other places for statements and their faults. -/
structure Relabeling where
  pos : Pos → Pos
  fault : Fault → Fault
  undeclared : ∀ name place, fault ⟨.undeclared name, place⟩ = ⟨.undeclared name, pos place⟩
  sumOutOfRange : ∀ lhs rhs place,
    fault ⟨.sumOutOfRange lhs rhs, place⟩ = ⟨.sumOutOfRange lhs rhs, pos place⟩

theorem mapError_ok {α : Type} (f : Fault → Fault) (value : α) :
    (Except.ok value : Except Fault α).mapError f = .ok value := rfl

section

variable (labels : Relabeling)

def VarRef.relabel (ref : VarRef) : VarRef :=
  { ref with pos := labels.pos ref.pos }

def Operand.relabel : Operand → Operand
  | .literal value pos => .literal value (labels.pos pos)
  | .var ref => .var (ref.relabel labels)

def Action.relabel : Action → Action
  | .blank => .blank
  | .comment => .comment
  | .printText text => .printText text
  | .printValue text value => .printValue text (value.relabel labels)
  | .declare name value => .declare name (value.relabel labels)
  | .assign dest lhs rhs => .assign (dest.relabel labels) (lhs.relabel labels) (rhs.relabel labels)
  | .invalid fault => .invalid (labels.fault fault)

def Test.relabel (test : Test) : Test :=
  { test with guard := test.guard.relabel labels }

theorem Store.read_relabel (store : Store) (ref : VarRef) :
    store.read (ref.relabel labels) = (store.read ref).mapError labels.fault := by
  cases found : store.get? ref.name with
  | none =>
      have same : store.get? (ref.relabel labels).name = none := found
      rw [read, read, same, found]
      exact congrArg Except.error (labels.undeclared ref.name ref.pos).symm
  | some value =>
      have same : store.get? (ref.relabel labels).name = some value := found
      rw [read, read, same, found]
      rfl

theorem Store.eval_relabel (store : Store) (operand : Operand) :
    store.eval (operand.relabel labels) = (store.eval operand).mapError labels.fault := by
  cases operand with
  | literal value pos => rfl
  | var ref => exact store.read_relabel labels ref

namespace Machine

theorem act_relabel (machine : Machine) (action : Action) :
    machine.act (action.relabel labels) = (machine.act action).mapError labels.fault := by
  cases action with
  | blank => rfl
  | comment => rfl
  | printText text => rfl
  | printValue text value =>
      simp only [Action.relabel, act, Store.eval_relabel]
      cases machine.store.eval value with
      | error fault => rfl
      | ok number => rfl
  | declare name value =>
      simp only [Action.relabel, act, Store.eval_relabel]
      cases machine.store.eval value with
      | error fault => rfl
      | ok number => rfl
  | assign dest lhs rhs =>
      simp only [Action.relabel, act, Store.eval_relabel]
      cases machine.store.eval lhs with
      | error fault => rfl
      | ok left =>
          cases machine.store.eval rhs with
          | error fault => rfl
          | ok right =>
              dsimp only [mapError_ok]
              cases addChecked left right with
              | none => exact congrArg Except.error (labels.sumOutOfRange left right dest.pos).symm
              | some sum => rfl
  | invalid fault => rfl

theorem holds_relabel (machine : Machine) (test : Test) :
    machine.holds (test.relabel labels) = (machine.holds test).mapError labels.fault := by
  rw [holds, holds]
  change (machine.store.read (test.guard.relabel labels)).map _ = _
  rw [Store.read_relabel]
  cases machine.store.read test.guard with
  | error fault => rfl
  | ok value => rfl

end Machine

end

end LineScript
