import Std.Data.TreeMap
import LineScript.Stmt

/-!
# Variables

All variables of a run live in one flat table, whatever block they are declared in. The table
is kept in the order of the names, which is the order of their code points.
-/

namespace LineScript

/-- The values of the variables. -/
structure Store where
  table : Std.TreeMap String Int64

namespace Store

/-- The store without variables. -/
def empty : Store := ⟨∅⟩

/-- Gives a variable a value, in place of an earlier one. -/
def set (store : Store) (name : String) (value : Int64) : Store :=
  ⟨store.table.insert name value⟩

/-- The value of a variable, if it has one. -/
def get? (store : Store) (name : String) : Option Int64 :=
  store.table[name]?

/-- Whether a variable has a value. -/
def contains (store : Store) (name : String) : Bool :=
  store.table.contains name

/-- The number of variables. -/
def size (store : Store) : Nat :=
  store.table.size

/-- Whether there are no variables. -/
def isEmpty (store : Store) : Bool :=
  store.table.isEmpty

/-- The variables and their values, in the order of the names. -/
def toList (store : Store) : List (String × Int64) :=
  store.table.toList

/-- The value of a variable where it is used, or the fault that it has none. -/
def read (store : Store) (ref : VarRef) : Except Fault Int64 :=
  match store.get? ref.name with
  | some value => .ok value
  | none => .error ⟨.undeclared ref.name, ref.pos⟩

/-- The value of an operand. Variables are read anew every time. -/
def eval (store : Store) : Operand → Except Fault Int64
  | .literal value _ => .ok value
  | .var ref => store.read ref

theorem get?_set (store : Store) (name other : String) (value : Int64) :
    (store.set name value).get? other = if name = other then some value else store.get? other := by
  simp [get?, set, Std.TreeMap.getElem?_insert]

theorem read_eq_ok {store : Store} {ref : VarRef} {value : Int64} :
    store.read ref = .ok value ↔ store.get? ref.name = some value := by
  rw [read]
  cases store.get? ref.name <;> simp

theorem read_eq_error {store : Store} {ref : VarRef} {fault : Fault} :
    store.read ref = .error fault ↔
      store.get? ref.name = none ∧ fault = ⟨.undeclared ref.name, ref.pos⟩ := by
  rw [read]
  cases store.get? ref.name <;> simp [eq_comm]

@[simp] theorem get?_empty (name : String) : empty.get? name = none := by
  simp [get?, empty]

end Store

end LineScript
