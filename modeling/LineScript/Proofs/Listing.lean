import LineScript.Stmt.Listing

/-!
# Statements within a tree

A listing is written by two functions that carry the rows already written. What a listing holds is
said here without them: `Stmt.allInOrder` gives the statements of a tree in the order of the rows,
`Stmt.Within` relates a statement to a tree in which it stands at any depth, and `Stmt.mem_listing`
is that relation for the rows of a listing.
-/

namespace LineScript

namespace Stmt

/-- The blocks that a statement owns. -/
def blocks : Stmt → List (List Stmt)
  | action _ _ => []
  | loop _ _ _ body => [body]
  | branch _ _ block => [block]
  | choice _ _ block other => [block, other]

/-- A statement stands somewhere in a tree. -/
inductive Within (stmt : Stmt) : List Stmt → Prop
  | here {stmts} (mem : stmt ∈ stmts) : Within stmt stmts
  | inside {stmts outer block} (mem : outer ∈ stmts) (owned : block ∈ outer.blocks)
      (rest : Within stmt block) : Within stmt stmts

variable {stmt : Stmt}

theorem within_nil : ¬ Within stmt [] := by
  intro within
  cases within with
  | here mem => cases mem
  | inside mem => cases mem

theorem within_cons {first : Stmt} {rest : List Stmt} :
    Within stmt (first :: rest) ↔
      stmt = first ∨ (∃ block ∈ first.blocks, Within stmt block) ∨ Within stmt rest := by
  constructor
  · intro within
    cases within with
    | here mem =>
        rcases List.mem_cons.mp mem with same | mem
        · exact .inl same
        · exact .inr (.inr (.here mem))
    | @inside _ outer block mem owned inner =>
        rcases List.mem_cons.mp mem with rfl | mem
        · exact .inr (.inl ⟨block, owned, inner⟩)
        · exact .inr (.inr (.inside mem owned inner))
  · rintro (rfl | ⟨block, owned, inner⟩ | within)
    · exact .here List.mem_cons_self
    · exact .inside List.mem_cons_self owned inner
    · cases within with
      | here mem => exact .here (List.mem_cons_of_mem _ mem)
      | inside mem owned inner => exact .inside (List.mem_cons_of_mem _ mem) owned inner

theorem within_append {left right : List Stmt} :
    Within stmt (left ++ right) ↔ Within stmt left ∨ Within stmt right := by
  induction left with
  | nil => simp [within_nil]
  | cons first rest ih =>
      rw [List.cons_append, within_cons, within_cons, ih, or_assoc, or_assoc]

mutual

private theorem mem_rowsOnto (outer : Stmt) (depth : Nat) (place : Place) (done : List Row) :
    (∃ row ∈ outer.rowsOnto depth place done, row.stmt = stmt) ↔
      stmt = outer ∨ (∃ block ∈ outer.blocks, Within stmt block) ∨
        ∃ row ∈ done, row.stmt = stmt := by
  match outer with
  | .action line simple => simp [rowsOnto, blocks, eq_comm]
  | .loop line guard bound body =>
      rw [rowsOnto, mem_allRowsOnto body]
      simp [blocks, eq_comm, or_left_comm]
  | .branch line test block =>
      rw [rowsOnto, mem_allRowsOnto block]
      simp [blocks, eq_comm, or_left_comm]
  | .choice line test block other =>
      rw [rowsOnto, mem_allRowsOnto other, mem_allRowsOnto block]
      simp only [blocks, List.mem_cons, List.not_mem_nil, or_false, exists_eq_or_imp, eq_comm]
      grind

private theorem mem_allRowsOnto (stmts : List Stmt) (depth : Nat) (place : Place)
    (done : List Row) :
    (∃ row ∈ allRowsOnto depth place done stmts, row.stmt = stmt) ↔
      Within stmt stmts ∨ ∃ row ∈ done, row.stmt = stmt := by
  match stmts with
  | [] => simp [allRowsOnto, within_nil]
  | first :: rest =>
      rw [allRowsOnto, mem_allRowsOnto rest, mem_rowsOnto first, within_cons]
      grind

end

mutual

/-- A statement and those of its blocks, in reading order. -/
def inOrder : Stmt → List Stmt
  | .action line simple => [.action line simple]
  | .loop line guard bound body => .loop line guard bound body :: allInOrder body
  | .branch line test block => .branch line test block :: allInOrder block
  | .choice line test block other =>
    .choice line test block other :: (allInOrder block ++ allInOrder other)

/-- The statements of a tree in reading order. -/
def allInOrder : List Stmt → List Stmt
  | [] => []
  | first :: rest => first.inOrder ++ allInOrder rest

end

theorem inOrder_eq (stmt : Stmt) : stmt.inOrder = stmt :: stmt.blocks.flatMap allInOrder := by
  cases stmt <;> simp [inOrder, blocks]

theorem allInOrder_append (left right : List Stmt) :
    allInOrder (left ++ right) = allInOrder left ++ allInOrder right := by
  induction left with
  | nil => rfl
  | cons first rest ih => rw [List.cons_append, allInOrder, allInOrder, ih, List.append_assoc]

mutual

private theorem map_rowsOnto (outer : Stmt) (depth : Nat) (place : Place) (done : List Row) :
    (outer.rowsOnto depth place done).map Row.stmt =
      outer.inOrder.reverse ++ done.map Row.stmt := by
  match outer with
  | .action line simple => rfl
  | .loop line guard bound body =>
      rw [rowsOnto, map_allRowsOnto body, inOrder]
      simp
  | .branch line test block =>
      rw [rowsOnto, map_allRowsOnto block, inOrder]
      simp
  | .choice line test block other =>
      rw [rowsOnto, map_allRowsOnto other, map_allRowsOnto block, inOrder]
      simp

private theorem map_allRowsOnto (stmts : List Stmt) (depth : Nat) (place : Place)
    (done : List Row) :
    (allRowsOnto depth place done stmts).map Row.stmt =
      (allInOrder stmts).reverse ++ done.map Row.stmt := by
  match stmts with
  | [] => rfl
  | first :: rest =>
      rw [allRowsOnto, map_allRowsOnto rest, map_rowsOnto first, allInOrder]
      simp

end

/-- A listing is in reading order. -/
theorem map_stmt_listing (stmts : List Stmt) :
    (listing stmts).map Row.stmt = allInOrder stmts := by
  rw [listing, List.map_reverse, map_allRowsOnto]
  simp

/-- The rows of a listing are those of the statements within the tree. -/
theorem mem_listing {stmts : List Stmt} :
    (∃ row ∈ listing stmts, row.stmt = stmt) ↔ Within stmt stmts := by
  have rows : (∃ row ∈ allRowsOnto 0 .top [] stmts, row.stmt = stmt) ↔ _ :=
    mem_allRowsOnto stmts 0 .top []
  simpa [listing] using rows

theorem mem_allInOrder {stmts : List Stmt} : stmt ∈ allInOrder stmts ↔ Within stmt stmts := by
  rw [← map_stmt_listing, List.mem_map, mem_listing]

end Stmt

end LineScript
