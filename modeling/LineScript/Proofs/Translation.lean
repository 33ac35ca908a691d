import LineScript.Proofs.FormValue
import LineScript.Proofs.Isolation
import LineScript.Proofs.LineOrder

/-!
# Equal lines in different places

Lines that are equal in two sources are read as the same statements, wherever they stand: higher up
or further down, and between whatever other lines, balanced or not. `Source.block_translated` says
so for any range of lines that can be counted. The trees differ in their line numbers only, all of
them by the distance between the two ranges.

Line numbers are words, and moving a tree down adds to them modulo their size. That no number wraps
is because every position in a statement lies on the line on which the statement starts, and the
statements start on lines of the range. The reading itself is moved down by `Source.relocated`; a
range that stands higher up is the same relation from the other side, since moving down can be
undone.
-/

namespace LineScript

/-! ## Positions in statements -/

/-- The position at which a value is written. -/
def Operand.pos : Operand → Pos
  | .literal _ pos => pos
  | .var ref => ref.pos

/-- The positions that a statement of one line carries. -/
def Action.places : Action → List Pos
  | .blank | .comment | .printText _ => []
  | .printValue _ value | .declare _ value => [value.pos]
  | .assign dest lhs rhs => [dest.pos, lhs.pos, rhs.pos]
  | .invalid fault => [fault.pos]

namespace Stmt

/-- The positions in a statement: its own, those of what it refers to, and that of its fault. The
statements of its blocks have positions of their own. -/
def places : Stmt → List Pos
  | .action line simple => ⟨line, 0⟩ :: simple.places
  | .loop line guard _ _ => [⟨line, 0⟩, guard.pos]
  | .branch line test _ | .choice line test _ _ => [⟨line, 0⟩, test.guard.pos]

/-- All positions in a statement lie on the line on which it starts. -/
def Level (stmt : Stmt) : Prop :=
  ∀ pos ∈ stmt.places, pos.line = stmt.line

end Stmt

namespace Form

variable {line : Nat} {text : Line} {action : Action} {fault : Fault}

theorem line_of_operand {token : Token} {operand : Operand}
    (read : token.operand line = .ok operand) : operand.pos.line = UInt32.ofNatClamp line := by
  rcases operand_cases read with ⟨value, -, rfl⟩ | ⟨-, rfl⟩
  · rfl
  · rfl

theorem line_of_ref {ref : VarRef} (mem : ref ∈ (ofLine line text).refs) :
    ref.pos.line = UInt32.ofNatClamp line := by
  obtain ⟨token, -, -, rfl⟩ := (ofLine_drawn line text).refs ref mem
  rfl

theorem line_of_fault (carried : (ofLine line text).fault? = some fault) :
    fault.pos.line = UInt32.ofNatClamp line := by
  cases (ofLine_drawn line text).fault fault carried <;> rfl

theorem level_action (form : ofLine line text = .action action) :
    (Stmt.onLine line action).Level := by
  have value {operand : Operand} (used : operand ∈ action.operands) :
      operand.pos.line = UInt32.ofNatClamp line := by
    obtain ⟨token, -, read⟩ := ofLine_readFrom line text operand (by rw [form]; exact used)
    exact line_of_operand read
  intro pos mem
  rcases List.mem_cons.mp mem with rfl | mem
  · rfl
  change pos.line = UInt32.ofNatClamp line
  cases action with
  | blank | comment | printText text => cases mem
  | printValue text operand =>
      cases List.mem_singleton.mp mem
      exact value List.mem_cons_self
  | declare name operand =>
      cases List.mem_singleton.mp mem
      exact value List.mem_cons_self
  | assign dest lhs rhs =>
      have parts : pos = dest.pos ∨ pos = lhs.pos ∨ pos = rhs.pos := by
        simpa [Action.places] using mem
      rcases parts with rfl | rfl | rfl
      · exact line_of_ref (by rw [form]; exact List.mem_cons_self)
      · exact value List.mem_cons_self
      · exact value (List.mem_cons_of_mem _ List.mem_cons_self)
  | invalid fault =>
      cases List.mem_singleton.mp mem
      exact line_of_fault (by rw [form]; rfl)

end Form

theorem Stmt.level_invalid {line : Nat} {fault : Fault}
    (here : fault.pos.line = UInt32.ofNatClamp line) : (onLine line (.invalid fault)).Level := by
  intro pos mem
  rcases List.mem_cons.mp mem with rfl | mem
  · rfl
  · cases List.mem_singleton.mp mem
    exact here

namespace Layout

variable {layout : Layout} {line limit first stop : Nat} {close : Spot} {opener : Opener}

theorem level_unclosed (form : Form.ofLine line (layout.text line) = .opener opener) :
    (layout.unclosed line limit opener).1.Level := by
  cases opener with
  | refused fault => exact Stmt.level_invalid (Form.line_of_fault (by rw [form]; rfl))
  | loop guard bound => exact Stmt.level_invalid rfl
  | branch test => exact Stmt.level_invalid rfl

theorem level_captured (form : Form.ofLine line (layout.text line) = .opener opener) :
    (layout.captured line limit close opener).1.Level := by
  have guarded {guard : VarRef} (used : guard ∈ opener.refs) :
      ∀ pos ∈ [⟨UInt32.ofNatClamp line, 0⟩, guard.pos], pos.line = UInt32.ofNatClamp line := by
    intro pos mem
    rcases List.mem_cons.mp mem with rfl | mem
    · rfl
    · cases List.mem_singleton.mp mem
      exact Form.line_of_ref (by rw [form]; exact used)
  cases opener with
  | refused fault => exact Stmt.level_invalid (Form.line_of_fault (by rw [form]; rfl))
  | loop guard bound => exact guarded List.mem_cons_self
  | branch test =>
      dsimp only [captured]
      split
      · exact guarded List.mem_cons_self
      · exact guarded List.mem_cons_self

theorem level_afterBlock {stmt : Stmt} (extra : (layout.afterBlock close limit).1 = some stmt) :
    stmt.Level := by
  unfold afterBlock at extra
  dsimp only at extra
  split at extra
  · cases extra
  · cases extra
    exact Stmt.level_invalid rfl

/-- Whatever a line adds to a block is level, also a fault behind the last brace of a statement. -/
theorem level_readLine {stmt : Stmt} (mem : stmt ∈ (layout.readLine line limit).1) :
    stmt.Level := by
  cases form : Form.ofLine line (layout.text line) with
  | action action =>
      rw [readLine_action form, List.mem_singleton] at mem
      rw [mem]
      exact Form.level_action form
  | opener opener =>
      cases found : layout.blockEnd? line limit with
      | none =>
          rw [readLine_unclosed form found, List.mem_singleton] at mem
          rw [mem]
          exact level_unclosed form
      | some close =>
          rw [readLine_captured form found] at mem
          rcases List.mem_cons.mp mem with rfl | behind
          · exact level_captured form
          · exact level_afterBlock (Option.mem_toList.mp behind)

/-- The positions in the statements of a range lie on lines of the range. -/
theorem line_of_place {stmt : Stmt} {pos : Pos} (small : stop ≤ UInt32.size)
    (within : stmt.Within (layout.block first stop)) (mem : pos ∈ stmt.places) :
    first ≤ pos.line.toNat ∧ pos.line.toNat < stop := by
  obtain ⟨line, limit, -, added⟩ := within_block.mp within
  rw [level_readLine added pos mem]
  exact (layout.startLines_block first small).2 _ (Stmt.mem_startLines.mpr ⟨stmt, within, rfl⟩)

end Layout

/-! ## Moving back -/

section Back

variable (rows : UInt32)

theorem line_down_neg (line : UInt32) : line + rows + -rows = line := by
  rw [UInt32.add_assoc, UInt32.add_right_neg, UInt32.add_zero]

@[simp] theorem Pos.down_neg (pos : Pos) : (pos.down rows).down (-rows) = pos := by
  simp only [down, line_down_neg]

@[simp] theorem Fault.down_neg (fault : Fault) : (fault.down rows).down (-rows) = fault := by
  simp only [down, Pos.down_neg]

@[simp] theorem VarRef.down_neg (ref : VarRef) : (ref.down rows).down (-rows) = ref := by
  simp only [down, Pos.down_neg]

@[simp] theorem Operand.down_neg (operand : Operand) :
    (operand.down rows).down (-rows) = operand := by
  cases operand <;> simp [down]

@[simp] theorem Action.down_neg (action : Action) : (action.down rows).down (-rows) = action := by
  cases action <;> simp [down]

@[simp] theorem Test.down_neg (test : Test) : (test.down rows).down (-rows) = test := by
  simp only [down, VarRef.down_neg]

namespace Stmt

mutual

/-- A statement that is moved down can be moved back. -/
theorem down_neg (stmt : Stmt) : (stmt.down rows).down (-rows) = stmt := by
  match stmt with
  | .action line simple => simp only [down, line_down_neg, Action.down_neg]
  | .loop line guard bound body =>
      simp only [down, line_down_neg, VarRef.down_neg, allDown_neg body]
  | .branch line test block => simp only [down, line_down_neg, Test.down_neg, allDown_neg block]
  | .choice line test block other =>
      simp only [down, line_down_neg, Test.down_neg, allDown_neg block, allDown_neg other]

private theorem allDown_neg (stmts : List Stmt) : allDown (-rows) (allDown rows stmts) = stmts := by
  match stmts with
  | [] => rfl
  | first :: rest => rw [allDown, allDown, down_neg first, allDown_neg rest]

end

theorem map_down_neg (stmts : List Stmt) : (stmts.map (down rows)).map (down (-rows)) = stmts := by
  rw [← allDown_eq_map, ← allDown_eq_map, allDown_neg]

end Stmt

end Back

/-! ## Translation -/

/-- The rows from one line to another. A line further up is so many rows down modulo the size of a
word. -/
def rowsTo (first first' : Nat) : UInt32 :=
  UInt32.ofNat first' - UInt32.ofNat first

/-- A line of a range that is moved keeps its distance from the beginning of the range. -/
theorem toNat_add_rowsTo {first first' : Nat} {line : UInt32} (after : first ≤ line.toNat)
    (small : first' + (line.toNat - first) < UInt32.size) :
    (line + rowsTo first first').toNat + first = line.toNat + first' := by
  have range := line.toNat_lt
  have word : UInt32.size = 2 ^ 32 := rfl
  rw [rowsTo, UInt32.toNat_add, UInt32.toNat_sub, UInt32.toNat_ofNat', UInt32.toNat_ofNat']
  omega

/-- The statements `moved` are `stmts` with the line `first` in the place `first'`, and every line
number is that of `stmts` plus the distance between the two, not only modulo the size of a word. -/
structure Translated (first first' : Nat) (stmts moved : List Stmt) : Prop where
  tree : moved = stmts.map (Stmt.down (rowsTo first first'))
  lines : ∀ stmt : Stmt, stmt.Within stmts → ∀ pos ∈ stmt.places,
    (pos.down (rowsTo first first')).line.toNat + first = pos.line.toNat + first'

namespace Source

variable {source other : Source} {first first' count : Nat}

/-- Equal lines further down are read as the same statements further down. -/
theorem block_down (le : first ≤ first') (small : first' + count ≤ UInt32.size)
    (agree : ∀ index < count, other.line (first' + index) = source.line (first + index)) :
    other.block first' (first' + count) =
      (source.block first (first + count)).map (Stmt.down (rowsTo first first')) := by
  have relocated : (Layout.ofSource source).Relocated (Layout.ofSource other) (first' - first)
      first (first + count) := by
    apply Source.relocated
    · intro line after before
      have same := agree (line - first) (by omega)
      rwa [show first' + (line - first) = line + (first' - first) by omega,
        show first + (line - first) = line by omega] at same
    · intro line after before
      exact ofNatClamp_add (by omega)
  have moved := relocated.block (Nat.le_refl first) (Nat.le_refl (first + count))
  rw [rowsTo, ← UInt32.ofNat_sub le]
  rwa [show first + (first' - first) = first' by omega,
    show first + count + (first' - first) = first' + count by omega] at moved

/-- Ranges of equal lines, in any two sources and in any two places, are read as the same
statements, but for the numbers of the lines. -/
theorem block_translated (source other : Source) (first first' count : Nat)
    (small : ∀ index < count, first + index < UInt32.size ∧ first' + index < UInt32.size)
    (agree : ∀ index < count, other.line (first' + index) = source.line (first + index)) :
    Translated first first' (source.block first (first + count))
      (other.block first' (first' + count)) := by
  rcases Nat.eq_zero_or_pos count with rfl | some
  · have empty (source : Source) (first : Nat) : source.block first (first + 0) = [] :=
      Layout.block_of_le (Nat.le_refl first)
    rw [empty, empty]
    exact ⟨rfl, fun stmt within => (Stmt.within_nil within).elim⟩
  have bounds := small (count - 1) (by omega)
  constructor
  · rcases Nat.le_total first first' with down | up
    · exact block_down down (by omega) agree
    · have back := block_down up (by omega) fun index inside => (agree index inside).symm
      rw [back, show rowsTo first first' = -rowsTo first' first from UInt32.neg_sub.symm,
        Stmt.map_down_neg]
  · intro stmt within pos mem
    have place := Layout.line_of_place (by omega) within mem
    exact toNat_add_rowsTo place.1 (by omega)

/-- The same four lines, further up in the other source, which ends before the last of them. There
is code behind the brace that ends the loop, and neither source is balanced. -/
theorem block_translated_up :
    let source := Source.ofText "\x7d\nif x\nwhile i < 3 \x7b\n  i = i + 1;\n\x7d \x7b\n\n\x7d"
    let other := Source.ofText "while i < 3 \x7b\n  i = i + 1;\n\x7d \x7b"
    (Layout.ofSource source).braceFault? = some ⟨.strayClose, ⟨0, 0⟩⟩ ∧
      (Layout.ofSource other).braceFault? = some ⟨.missingClose, ⟨2, 3⟩⟩ ∧
      (∀ index < 4, 2 + index < UInt32.size ∧ 0 + index < UInt32.size) ∧
      (∀ index < 4, other.line (0 + index) = source.line (2 + index)) ∧
      Translated 2 0 (source.block 2 6) (other.block 0 4) := by
  intro source other
  have small : ∀ index < 4, 2 + index < UInt32.size ∧ 0 + index < UInt32.size := by decide
  have agree : ∀ index < 4, other.line (0 + index) = source.line (2 + index) := by decide +kernel
  exact ⟨by decide +kernel, by decide +kernel, small, agree,
    block_translated source other 2 0 4 small agree⟩

end Source

end LineScript
