import LineScript.Proofs.LineOrder

/-!
# Statements in the order of the source

A listing names the statements of a range in reading order. Their lines rise: no line is listed
twice, none before an earlier one, and none outside the range. Each block stands between the line
that opens it and the line on which the brace is that ends it, and so do the blocks in it. This
holds of every source and every range that can be counted; nothing needs to be balanced or valid.

A line can come after a statement in four ways: behind a single line, behind a captured block,
behind the other block of a choice, and behind code after a last brace, which may open a block that
is skipped. Each of them goes on behind all that was read, which `Layout.rising_readLine` shows once
for what a line adds. Where the blocks of a statement lie is read off the same description of what a
line adds.
-/

namespace LineScript

/-- The statements of a block, with those of the blocks in it, start behind the line `header` and
before the line `closing`. -/
def Stmt.Between (header closing : Nat) (block : List Stmt) : Prop :=
  ∀ index ∈ startLines block, header < index ∧ index < closing

namespace Source

variable {source : Source} {first stop line limit : Nat} {close : Spot} {stmt : Stmt}

/-- The other block of a choice whose first block ends at `close` is opened on the line `header`, by
the text from the column `fromCol` on: behind the brace, or on the next line if there is no code
behind it. -/
def OpensOther (source : Source) (close : Spot) (header fromCol : Nat) : Prop :=
  header = close.line ∧ fromCol = close.col + 1 ∧ opensOther (source.textAfter close) ∨
    header = close.line + 1 ∧ fromCol = 0 ∧ scanCode (source.textAfter close) = [] ∧
      opensOther (source.line header)

/-- The blocks of a statement stand between the lines that open them and the braces that end them,
all of these before the line `stop`. -/
def Encloses (source : Source) (stop : Nat) : Stmt → Prop
  | .action _ _ => True
  | .loop line _ _ block | .branch line _ block =>
    ∃ close, source.pairing.closeOf line.toNat 0 stop = some close ∧
      Stmt.Between line.toNat close.line block
  | .choice line _ block other =>
    ∃ close header fromCol ends, source.pairing.closeOf line.toNat 0 stop = some close ∧
      Stmt.Between line.toNat close.line block ∧ source.OpensOther close header fromCol ∧
      source.pairing.closeOf header fromCol stop = some ends ∧
      Stmt.Between header ends.line other

theorem between_block (source : Source) (line : Nat) (small : limit ≤ UInt32.size) :
    Stmt.Between line limit ((Layout.ofSource source).block (line + 1) limit) :=
  ((Layout.ofSource source).startLines_block (line + 1) small).2

theorem encloses_captured (opener : Opener)
    (found : (Layout.ofSource source).blockEnd? line limit = some close) (upto : limit ≤ stop)
    (small : stop ≤ UInt32.size) :
    source.Encloses stop ((Layout.ofSource source).captured line limit close opener).1 := by
  have inside := Layout.blockEnd?_line found
  have number : (UInt32.ofNatClamp line).toNat = line := Pos.clamped_line 0 (by omega)
  have closes : source.pairing.closeOf (UInt32.ofNatClamp line).toNat 0 stop = some close := by
    rw [number]
    exact Pairing.closeOf_mono (Layout.closeOf_of_blockEnd? found) upto
  have own : Stmt.Between (UInt32.ofNatClamp line).toNat close.line
      ((Layout.ofSource source).block (line + 1) close.line) := by
    rw [number]
    exact source.between_block line (by omega)
  cases opener with
  | refused fault => trivial
  | loop guard bound => exact ⟨close, closes, own⟩
  | branch test =>
      dsimp only [Layout.captured]
      split
      · exact ⟨close, closes, own⟩
      · next ends other =>
        have order := Layout.otherBlock?_line other
        rw [Layout.otherBlock?_eq] at other
        obtain ⟨⟨header, fromCol⟩, opened, second⟩ := Option.bind_eq_some_iff.mp other
        obtain ⟨_, closed, same⟩ := Option.map_eq_some_iff.mp second
        cases same
        refine ⟨close, header, fromCol, ends, closes, own, ?_, Pairing.closeOf_mono closed upto,
          source.between_block header (by omega)⟩
        rcases Layout.otherHeader?_opens opened with ⟨same, behind⟩ | ⟨same, none_behind, next⟩
        · cases same
          exact .inl ⟨rfl, rfl, behind⟩
        · cases same
          exact .inr ⟨rfl, rfl, none_behind, next⟩

/-- Whatever a line adds to a block encloses its blocks. -/
theorem encloses_readLine (upto : limit ≤ stop) (small : stop ≤ UInt32.size)
    (mem : stmt ∈ ((Layout.ofSource source).readLine line limit).1) :
    source.Encloses stop stmt := by
  cases form : Form.ofLine line ((Layout.ofSource source).text line) with
  | action action =>
      rw [Layout.readLine_action form, List.mem_singleton] at mem
      rw [mem]
      trivial
  | opener opener =>
      cases found : (Layout.ofSource source).blockEnd? line limit with
      | none =>
          rw [Layout.readLine_unclosed form found, List.mem_singleton] at mem
          rw [mem]
          trivial
      | some close =>
          rw [Layout.readLine_captured form found] at mem
          rcases List.mem_cons.mp mem with rfl | behind
          · exact encloses_captured opener found upto small
          · obtain ⟨text, pos, rfl⟩ := Layout.afterBlock_extra (Option.mem_toList.mp behind)
            trivial

/-- The statements of the lines from `first` to `stop` are listed in the order of these lines, once
each, and every block stands between its braces. -/
structure ListsInOrder (source : Source) (first stop : Nat) : Prop where
  rising : (Stmt.startLines (source.block first stop)).Pairwise (· < ·)
  inside : ∀ index ∈ Stmt.startLines (source.block first stop), first ≤ index ∧ index < stop
  encloses : ∀ row ∈ Stmt.listing (source.block first stop), source.Encloses stop row.stmt

/-- Every range of every source is listed in order. -/
theorem listsInOrder (source : Source) (first stop : Nat) (small : stop ≤ UInt32.size) :
    source.ListsInOrder first stop := by
  obtain ⟨rising, inside⟩ := (Layout.ofSource source).startLines_block first small
  refine ⟨rising, inside, ?_⟩
  intro row mem
  obtain ⟨line, limit, reads, added⟩ :=
    Layout.within_block.mp (Stmt.mem_listing.mp ⟨row, mem, rfl⟩)
  exact encloses_readLine reads.bounds.2 small added

/-- An unbalanced source in which all that can come after a statement does: the other block of a
choice on the line that ends the first, code behind its last brace that opens a block to be skipped,
and a range that ends behind the source. -/
theorem listsInOrder_unbalanced :
    let source := Source.ofText
      "\x7d\nif x == 1 \x7b\nwhile x < 2 \x7b\nx = x + 1;\n\x7d\n\x7d else \x7b\ny\n\x7d x \x7b\nz\n\x7d\nvar"
    (Layout.ofSource source).braceFault? = some ⟨.strayClose, ⟨0, 0⟩⟩ ∧
      12 ≤ UInt32.size ∧
      Stmt.startLines (source.block 1 12) = [1, 2, 3, 6, 7, 10, 11] ∧
      source.ListsInOrder 1 12 := by
  intro source
  have small : 12 ≤ UInt32.size := by decide
  exact ⟨by decide +kernel, small, by decide +kernel, listsInOrder source 1 12 small⟩

end Source

end LineScript
