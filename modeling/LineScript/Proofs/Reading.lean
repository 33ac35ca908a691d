import LineScript.Stmt.Block
import LineScript.Proofs.Listing

/-!
# Reading line by line

`Layout.readLines` collects the statements of a range of lines in one pass. Here the pass is taken
apart: `Layout.readLine` is what one line adds to it, the statement that begins there with its
blocks, a fault for code behind its last brace, and the next line to read. A block is what its
first line adds, followed by the block of the lines from the next line on.

Facts about blocks are proved from these two equations, by induction on the lines that are left.
`Layout.Reads` is the way that reading takes through a range of lines and the ranges of the blocks
in it: a statement stands within a block exactly if a line on this way adds it.
-/

namespace LineScript

namespace Layout

/-- Where the other block of a choice is opened whose first block ends at `close`: the line, and
the column in which the text that opens the block begins. -/
def otherHeader? (layout : Layout) (close : Spot) (limit : Nat) : Option (Nat × Nat) :=
  let rest := layout.source.textAfter close
  if opensOther rest then some (close.line, close.col + 1)
  else if (scanCode rest).isEmpty ∧ close.line + 1 < limit ∧
      opensOther (layout.text (close.line + 1)) then
    some (close.line + 1, 0)
  else none

theorem otherBlock?_eq (layout : Layout) (close : Spot) (limit : Nat) :
    layout.otherBlock? close limit =
      (layout.otherHeader? close limit).bind fun header =>
        (layout.pairing.closeOf header.1 header.2 limit).map fun stop => (header.1, stop) := by
  unfold otherBlock? otherHeader?
  dsimp only
  split
  · rfl
  · split
    · rfl
    · rfl

/-- The other block is opened on the line that ends the first or on the next one. -/
theorem otherHeader?_line {layout : Layout} {close : Spot} {limit : Nat} {header : Nat × Nat}
    (inside : close.line < limit)
    (h : layout.otherHeader? close limit = some header) :
    close.line ≤ header.1 ∧ header.1 < limit := by
  unfold otherHeader? at h
  dsimp only at h
  split at h
  · cases h
    exact ⟨Nat.le_refl _, inside⟩
  · split at h
    · next follows =>
      cases h
      exact ⟨Nat.le_succ _, follows.2.1⟩
    · cases h

/-- All the code behind the first block opens the other, or there is none and the next line does. -/
theorem otherHeader?_opens {layout : Layout} {close : Spot} {limit : Nat} {header : Nat × Nat}
    (h : layout.otherHeader? close limit = some header) :
    header = (close.line, close.col + 1) ∧ opensOther (layout.source.textAfter close) ∨
      header = (close.line + 1, 0) ∧ scanCode (layout.source.textAfter close) = [] ∧
        opensOther (layout.text (close.line + 1)) := by
  unfold otherHeader? at h
  dsimp only at h
  split at h
  · next here =>
    cases h
    exact .inl ⟨rfl, here⟩
  · split at h
    · next follows =>
      cases h
      exact .inr ⟨rfl, List.isEmpty_iff.mp follows.1, follows.2.2⟩
    · cases h

theorem closeOf_of_blockEnd? {layout : Layout} {line limit : Nat} {close : Spot}
    (h : layout.blockEnd? line limit = some close) :
    layout.pairing.closeOf line 0 limit = some close := by
  unfold blockEnd? at h
  split at h
  · exact h
  · cases h

theorem afterBlock_next_le {layout : Layout} {close : Spot} {limit : Nat}
    (inside : close.line < limit) : (layout.afterBlock close limit).2 ≤ limit := by
  unfold afterBlock
  dsimp only
  split
  · exact inside
  · dsimp only
    split
    · cases found : layout.pairing.closeOf close.line (close.col + 1) limit with
      | none => exact Nat.le_refl limit
      | some stop => exact (Pairing.closeOf_line found).2
    · exact inside

/-- What is added behind the last brace of a statement is code of no known form. -/
theorem afterBlock_extra {layout : Layout} {close : Spot} {limit : Nat} {stmt : Stmt}
    (extra : (layout.afterBlock close limit).1 = some stmt) :
    ∃ text pos, stmt = .onLine close.line (.invalid ⟨.unknownForm text, pos⟩) := by
  unfold afterBlock at extra
  dsimp only at extra
  split at extra
  · cases extra
  · exact ⟨_, _, (Option.some.inj extra).symm⟩

/-- The statement of an opener whose first block ends at `close`, and the brace that ends its last
block. -/
def captured (layout : Layout) (line limit : Nat) (close : Spot) : Opener → Stmt × Spot
  | .refused fault => (.onLine line (.invalid fault), close)
  | .loop guard bound =>
    (.loop (UInt32.ofNatClamp line) guard bound (layout.block (line + 1) close.line), close)
  | .branch test =>
    match layout.otherBlock? close limit with
    | none => (.branch (UInt32.ofNatClamp line) test (layout.block (line + 1) close.line), close)
    | some (otherLine, stop) =>
      (.choice (UInt32.ofNatClamp line) test (layout.block (line + 1) close.line)
        (layout.block (otherLine + 1) stop.line), stop)

/-- What the line `line` adds to the block of the lines before `limit`, and the next line. -/
def readLine (layout : Layout) (line limit : Nat) : List Stmt × Nat :=
  match Form.ofLine line (layout.text line) with
  | .action action => ([.onLine line action], line + 1)
  | .opener opener =>
    match layout.blockEnd? line limit with
    | none => ([(layout.unclosed line limit opener).1], (layout.unclosed line limit opener).2)
    | some close =>
      let whole := layout.captured line limit close opener
      let after := layout.afterBlock whole.2 limit
      (whole.1 :: after.1.toList, after.2)

section

variable {layout : Layout} {line limit : Nat}

theorem readLine_action {action : Action}
    (form : Form.ofLine line (layout.text line) = .action action) :
    layout.readLine line limit = ([.onLine line action], line + 1) := by
  simp [readLine, form]

theorem readLine_unclosed {opener : Opener}
    (form : Form.ofLine line (layout.text line) = .opener opener)
    (missing : layout.blockEnd? line limit = none) :
    layout.readLine line limit =
      ([(layout.unclosed line limit opener).1], (layout.unclosed line limit opener).2) := by
  simp [readLine, form, missing]

theorem readLine_captured {opener : Opener} {close : Spot}
    (form : Form.ofLine line (layout.text line) = .opener opener)
    (found : layout.blockEnd? line limit = some close) :
    layout.readLine line limit =
      ((layout.captured line limit close opener).1 ::
          (layout.afterBlock (layout.captured line limit close opener).2 limit).1.toList,
        (layout.afterBlock (layout.captured line limit close opener).2 limit).2) := by
  simp [readLine, form, found]

/-- One line of the pass. -/
theorem readLines_eq_readLine (inside : line < limit) (done : List Stmt) :
    layout.readLines limit line done =
      layout.readLines limit (layout.readLine line limit).2
        ((layout.readLine line limit).1.reverse ++ done) := by
  have reverse_toList (extra : Option Stmt) : extra.toList.reverse = extra.toList := by
    cases extra <;> rfl
  rw [readLines, dif_pos inside]
  split
  · next action form => rw [readLine_action form]; rfl
  · next opener form =>
    split
    · next missing => rw [readLine_unclosed form missing]; rfl
    · next close found =>
      rw [readLine_captured form found]
      cases opener with
      | refused fault => simp [captured, reverse_toList]
      | loop guard bound => simp [captured, block, reverse_toList]
      | branch test =>
          dsimp only
          split
          · next missing => simp [captured, missing, block, reverse_toList]
          · next otherLine stop other => simp [captured, other, block, reverse_toList]

/-- The brace that ends the last block lies behind the opener and before the limit. -/
theorem captured_line {close : Spot} (opener : Opener)
    (found : layout.blockEnd? line limit = some close) :
    line < (layout.captured line limit close opener).2.line ∧
      (layout.captured line limit close opener).2.line < limit := by
  have ends := blockEnd?_line found
  cases opener with
  | refused fault => exact ends
  | loop guard bound => exact ends
  | branch test =>
      dsimp only [captured]
      split
      · exact ends
      · next otherLine stop other =>
        have := otherBlock?_line other
        exact ⟨by dsimp only; omega, this.2.2⟩

/-- Reading makes progress with every line. -/
theorem lt_readLine_next (inside : line < limit) : line < (layout.readLine line limit).2 := by
  cases form : Form.ofLine line (layout.text line) with
  | action action =>
      rw [readLine_action form]
      exact Nat.lt_succ_self line
  | opener opener =>
      cases found : layout.blockEnd? line limit with
      | none =>
          rw [readLine_unclosed form found]
          exact layout.lt_unclosed_next opener inside
      | some close =>
          rw [readLine_captured form found]
          have ends := captured_line opener found
          exact Nat.lt_trans ends.1 (lt_afterBlock_next ends.2)

/-- The statements that have been read stay in front. -/
theorem readLines_eq (layout : Layout) (limit line : Nat) (done : List Stmt) :
    layout.readLines limit line done = done.reverse ++ layout.block line limit := by
  induction left : limit - line using Nat.strongRecOn generalizing line done with
  | ind n ih =>
      by_cases inside : line < limit
      · have progress := layout.lt_readLine_next inside
        rw [block, readLines_eq_readLine inside, readLines_eq_readLine inside,
          ih _ (by omega) _ _ rfl, ih _ (by omega) _ ((layout.readLine line limit).1.reverse ++ [])
            rfl]
        simp
      · rw [block, readLines, readLines, dif_neg inside, dif_neg inside]
        simp

theorem block_of_le (h : limit ≤ line) : layout.block line limit = [] := by
  rw [block, readLines, dif_neg (Nat.not_lt.mpr h)]
  rfl

/-- A block is what its first line adds and then the block of the lines that are left. -/
theorem block_eq (inside : line < limit) :
    layout.block line limit =
      (layout.readLine line limit).1 ++ layout.block (layout.readLine line limit).2 limit := by
  rw [block, readLines_eq_readLine inside, readLines_eq]
  simp

/-- The next line does not lie behind the limit. -/
theorem readLine_next_le (inside : line < limit) : (layout.readLine line limit).2 ≤ limit := by
  cases form : Form.ofLine line (layout.text line) with
  | action action =>
      rw [readLine_action form]
      exact inside
  | opener opener =>
      cases found : layout.blockEnd? line limit with
      | none =>
          rw [readLine_unclosed form found]
          dsimp only [unclosed]
          split
          · exact Nat.le_refl limit
          · exact inside
      | some close =>
          rw [readLine_captured form found]
          exact afterBlock_next_le (captured_line opener found).2

/-- The lines of the blocks of an opener whose first block ends at `close`. -/
def ranges (layout : Layout) (line limit : Nat) (close : Spot) : Opener → List (Nat × Nat)
  | .refused _ => []
  | .loop _ _ => [(line + 1, close.line)]
  | .branch _ =>
    (line + 1, close.line) ::
      ((layout.otherBlock? close limit).map fun other => (other.1 + 1, other.2.line)).toList

theorem captured_blocks (close : Spot) (opener : Opener) :
    (layout.captured line limit close opener).1.blocks =
      (layout.ranges line limit close opener).map fun range => layout.block range.1 range.2 := by
  cases opener with
  | refused fault => rfl
  | loop guard bound => rfl
  | branch test =>
      dsimp only [captured, ranges]
      split
      · next missing => simp [missing, Stmt.blocks]
      · next otherLine stop other => simp [other, Stmt.blocks]

/-- The lines of a block lie between its opener and the limit. -/
theorem ranges_bounds {close : Spot} {opener : Opener} {range : Nat × Nat}
    (found : layout.blockEnd? line limit = some close)
    (mem : range ∈ layout.ranges line limit close opener) :
    line < range.1 ∧ range.2 < limit := by
  have ends := blockEnd?_line found
  cases opener with
  | refused fault => cases mem
  | loop guard bound =>
      cases List.mem_singleton.mp mem
      exact ⟨Nat.lt_succ_self line, ends.2⟩
  | branch test =>
      rcases List.mem_cons.mp mem with rfl | mem
      · exact ⟨Nat.lt_succ_self line, ends.2⟩
      · rw [Option.mem_toList] at mem
        obtain ⟨⟨otherLine, stop⟩, other, rfl⟩ := Option.map_eq_some_iff.mp mem
        have := otherBlock?_line other
        exact ⟨by dsimp only; omega, this.2.2⟩

/-- Reading the lines from `first` to `stop` comes to the line `line`, in the block of the lines
before `limit`. -/
inductive Reads (layout : Layout) (line limit : Nat) : Nat → Nat → Prop
  | here (inside : line < limit) : Reads layout line limit line limit
  | next {first stop} (inside : first < stop)
      (rest : Reads layout line limit (layout.readLine first stop).2 stop) :
      Reads layout line limit first stop
  | block {first stop opener close range}
      (form : Form.ofLine first (layout.text first) = .opener opener)
      (found : layout.blockEnd? first stop = some close)
      (owned : range ∈ layout.ranges first stop close opener)
      (rest : Reads layout line limit range.1 range.2) : Reads layout line limit first stop

theorem Reads.lt {first stop : Nat} (reads : layout.Reads line limit first stop) :
    line < limit ∧ first < stop := by
  induction reads with
  | here inside => exact ⟨inside, inside⟩
  | next inside _ ih => exact ⟨ih.1, inside⟩
  | block _ found _ _ ih =>
      have := blockEnd?_line found
      exact ⟨ih.1, by omega⟩

/-- The lines that are read lie in the range. -/
theorem Reads.bounds {first stop : Nat} (reads : layout.Reads line limit first stop) :
    first ≤ line ∧ limit ≤ stop := by
  induction reads with
  | here => exact ⟨Nat.le_refl line, Nat.le_refl limit⟩
  | next inside _ ih =>
      have := layout.lt_readLine_next inside
      exact ⟨by omega, ih.2⟩
  | block _ found owned _ ih =>
      have := ranges_bounds found owned
      exact ⟨by omega, by omega⟩

/-- A block owned by a statement that a line adds is read from a range of that line's opener. -/
theorem exists_range_of_mem_readLine {stmt : Stmt} {block : List Stmt}
    (mem : stmt ∈ (layout.readLine line limit).1) (owned : block ∈ stmt.blocks) :
    ∃ opener close range, Form.ofLine line (layout.text line) = .opener opener ∧
      layout.blockEnd? line limit = some close ∧
      range ∈ layout.ranges line limit close opener ∧ block = layout.block range.1 range.2 := by
  cases form : Form.ofLine line (layout.text line) with
  | action action =>
      rw [readLine_action form, List.mem_singleton] at mem
      rw [mem] at owned
      cases owned
  | opener opener =>
      cases found : layout.blockEnd? line limit with
      | none =>
          rw [readLine_unclosed form found, List.mem_singleton] at mem
          rw [mem] at owned
          cases owned
      | some close =>
          rw [readLine_captured form found] at mem
          rcases List.mem_cons.mp mem with rfl | behind
          · rw [captured_blocks] at owned
            obtain ⟨range, inRanges, rfl⟩ := List.mem_map.mp owned
            exact ⟨opener, close, range, rfl, rfl, inRanges, rfl⟩
          · rw [Option.mem_toList] at behind
            obtain ⟨text, pos, rfl⟩ := afterBlock_extra behind
            cases owned

/-- A statement stands within a block exactly if a line that is read for the block adds it. -/
theorem within_block {stmt : Stmt} {first stop : Nat} :
    Stmt.Within stmt (layout.block first stop) ↔
      ∃ line limit, layout.Reads line limit first stop ∧ stmt ∈ (layout.readLine line limit).1 := by
  constructor
  · induction left : stop - first using Nat.strongRecOn generalizing first stop with
    | ind n ih =>
        intro within
        by_cases inside : first < stop
        · rw [block_eq inside, Stmt.within_append] at within
          rcases within with added | later
          · cases added with
            | here mem => exact ⟨first, stop, .here inside, mem⟩
            | inside mem owned inner =>
                obtain ⟨opener, close, range, form, found, inRanges, rfl⟩ :=
                  exists_range_of_mem_readLine mem owned
                have := ranges_bounds found inRanges
                obtain ⟨line, limit, reads, mem⟩ := ih _ (by omega) rfl inner
                exact ⟨line, limit, .block form found inRanges reads, mem⟩
          · have := layout.lt_readLine_next inside
            obtain ⟨line, limit, reads, mem⟩ := ih _ (by omega) rfl later
            exact ⟨line, limit, .next inside reads, mem⟩
        · rw [block_of_le (Nat.le_of_not_lt inside)] at within
          exact (Stmt.within_nil within).elim
  · rintro ⟨line, limit, reads, mem⟩
    induction reads with
    | here inside =>
        rw [block_eq inside]
        exact Stmt.within_append.mpr (.inl (.here mem))
    | next inside _ ih =>
        rw [block_eq inside]
        exact Stmt.within_append.mpr (.inr ih)
    | @block first stop opener close range form found owned _ ih =>
        have ends := blockEnd?_line found
        rw [block_eq (Nat.lt_trans ends.1 ends.2), readLine_captured form found]
        refine Stmt.within_append.mpr (.inl (.inside List.mem_cons_self ?_ ih))
        rw [captured_blocks]
        exact List.mem_map.mpr ⟨range, owned, rfl⟩

end

end Layout

end LineScript
