import LineScript.Stmt

/-!
# Listings of statements

A listing names every statement of a tree once, in reading order: a statement, then those of
its blocks. Each row tells how deep the statement is and what kind of block it is in.
-/

namespace LineScript

/-- The kind of block a statement is in. -/
inductive Place where
  | top
  | body
  | block
  | other
deriving DecidableEq

/-- A statement with its place in a tree. -/
structure Row where
  depth : Nat
  place : Place
  stmt : Stmt

mutual

/-- Puts the rows of a statement, latest first, before the rows `done`. -/
def Stmt.rowsOnto (depth : Nat) (place : Place) (done : List Row) : Stmt → List Row
  | .action line simple => ⟨depth, place, .action line simple⟩ :: done
  | .loop line guard bound body =>
    Stmt.allRowsOnto (depth + 1) .body (⟨depth, place, .loop line guard bound body⟩ :: done) body
  | .branch line test block =>
    Stmt.allRowsOnto (depth + 1) .block (⟨depth, place, .branch line test block⟩ :: done) block
  | .choice line test block other =>
    Stmt.allRowsOnto (depth + 1) .other
      (Stmt.allRowsOnto (depth + 1) .block (⟨depth, place, .choice line test block other⟩ :: done)
        block)
      other

/-- Puts the rows of consecutive statements, latest first, before the rows `done`. -/
def Stmt.allRowsOnto (depth : Nat) (place : Place) (done : List Row) : List Stmt → List Row
  | [] => done
  | stmt :: rest => Stmt.allRowsOnto depth place (stmt.rowsOnto depth place done) rest

end

/-- The rows of a tree in reading order. -/
def Stmt.listing (stmts : List Stmt) : List Row :=
  (Stmt.allRowsOnto 0 .top [] stmts).reverse

end LineScript
