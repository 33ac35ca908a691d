import LineScript.Proofs.Bare
import LineScript.Proofs.Reading
import LineScript.Proofs.Wrapping

/-!
# Lines with rows between them

A source may be spread out: each of its lines gets an aside, and rows without code stand between
the lines. `Spread place source other` says that line `line` of `source` is row `place line` of
`other`. Braces are paired in one pass over the whole source, so all places of closing braces
change, but none of the new text takes part: what waits before a row is what waits before the line
that comes next, with its places renumbered, and so are the ends of the blocks.

Reading the rows is then reading the lines. A row without code is read as a statement that is left
out of the bare block, `Spread.allBare_block`. The only line that is looked at from another one is
the line that opens the other block of a choice, and there no row may come between.
-/

namespace LineScript

/-- Row `row` is that of line `line`, or stands in front of it and behind all lines before. -/
structure Reaches (place : Nat → Nat) (row line : Nat) : Prop where
  upto : row ≤ place line
  past : ∀ before < line, place before < row

theorem Reaches.zero (place : Nat → Nat) : Reaches place 0 0 := by
  refine ⟨Nat.zero_le _, ?_⟩
  intro before negative
  exact absurd negative (Nat.not_lt_zero before)

/-- `other` is `source` with asides behind its lines and with rows without code between them. -/
structure Spread (place : Nat → Nat) (source other : Source) : Prop where
  rising : ∀ {before line}, before < line → place before < place line
  size : place source.size = other.size
  text : ∀ line, ∃ tail, IsAside tail ∧ other.line (place line) = source.line line ++ tail
  code : ∀ line, scanCode (other.line (place line)) = scanCode (source.line line)
  idle : ∀ row, (∀ line, place line ≠ row) → IsIdle (other.line row)
  apart : ∀ line, opensOther (source.line (line + 1)) → place (line + 1) = place line + 1

theorem not_opensOther_of_quiet {row : Line} (quiet : scanCode row = []) :
    opensOther row = false := by
  rw [opensOther, quiet]
  rfl

namespace Layout

variable (layout : Layout) {close : Spot} (limit : Nat)

theorem afterBlock_of_quiet (quiet : scanCode (layout.source.textAfter close) = []) :
    layout.afterBlock close limit = (none, close.line + 1) := by
  simp only [afterBlock, quiet]

/-- Code behind a brace is a fault, and the block it may open is skipped. -/
theorem afterBlock_of_code (code : scanCode (layout.source.textAfter close) ≠ []) :
    Stmt.allBare (layout.afterBlock close limit).1.toList =
        [.action 0 (.invalid ⟨.unknownForm "", .start⟩)] ∧
      (layout.afterBlock close limit).2 =
        if 0 < depthChange (layout.source.textAfter close) then
          ((layout.pairing.closeOf close.line (close.col + 1) limit).map fun stop =>
            stop.line + 1).getD limit
        else close.line + 1 := by
  unfold afterBlock
  dsimp only
  split
  · next quiet => exact (code quiet).elim
  · exact ⟨rfl, rfl⟩

/-- A row without code is read as a statement that is left out. -/
theorem allBare_block_quiet {row : Nat} (inside : row < limit)
    (quiet : scanCode (layout.text row) = []) :
    Stmt.allBare (layout.block row limit) = Stmt.allBare (layout.block (row + 1) limit) := by
  rcases Form.ofLine_of_quiet quiet row with blank | comment
  · rw [block_eq inside, readLine_action blank]
    rfl
  · rw [block_eq inside, readLine_action comment]
    rfl

end Layout

namespace Source

variable {source : Source} {line limit fromCol : Nat} {close : Spot}

/-- A brace that ends a block stands on its line. -/
theorem col_lt_of_closeOf (found : source.pairing.closeOf line fromCol limit = some close) :
    close.col < (source.line close.line).length :=
  (List.getElem?_eq_some_iff.mp
    (Source.brace_of_mem_waiting (Source.mem_waiting_of_closeOf found))).1

theorem col_lt_of_blockEnd? (found : (Layout.ofSource source).blockEnd? line limit = some close) :
    close.col < (source.line close.line).length :=
  col_lt_of_closeOf (Layout.closeOf_of_blockEnd? found)

/-- The brace that ends the last block of a statement stands on its line. -/
theorem col_lt_of_captured (opener : Opener)
    (found : (Layout.ofSource source).blockEnd? line limit = some close) :
    ((Layout.ofSource source).captured line limit close opener).2.col <
      (source.line ((Layout.ofSource source).captured line limit close opener).2.line).length := by
  cases opener with
  | refused fault => exact col_lt_of_blockEnd? found
  | loop guard bound => exact col_lt_of_blockEnd? found
  | branch test =>
      dsimp only [Layout.captured]
      split
      · exact col_lt_of_blockEnd? found
      · next header stop second =>
        rw [Layout.otherBlock?_eq] at second
        obtain ⟨header, -, ends⟩ := Option.bind_eq_some_iff.mp second
        obtain ⟨own, closes, same⟩ := Option.map_eq_some_iff.mp ends
        cases same
        exact col_lt_of_closeOf closes

end Source

namespace Spread

variable {place : Nat → Nat} {source other : Source} (spread : Spread place source other)
variable {row line limit fromCol : Nat} {close : Spot}

include spread

/-! ## Rows and lines -/

theorem lt_iff : place line < place limit ↔ line < limit := by
  constructor
  · intro before
    apply Classical.byContradiction
    intro after
    rcases Nat.eq_or_lt_of_le (Nat.le_of_not_lt after) with rfl | later
    · exact Nat.lt_irrefl _ before
    · exact Nat.lt_asymm before (spread.rising later)
  · exact spread.rising

theorem le_iff : place line ≤ place limit ↔ line ≤ limit := by
  rw [← Nat.not_lt, ← Nat.not_lt, spread.lt_iff]

theorem reaches_place (line : Nat) : Reaches place (place line) line :=
  ⟨Nat.le_refl _, fun _ => spread.rising⟩

theorem reaches_succ (line : Nat) : Reaches place (place line + 1) (line + 1) := by
  refine ⟨spread.rising (Nat.lt_succ_self line), ?_⟩
  intro before upto
  exact Nat.lt_succ_of_le (spread.le_iff.mpr (Nat.le_of_lt_succ upto))

/-- A row before the place of a line has no code. -/
theorem idle_of_reaches (reaches : Reaches place row line) (before : row < place line) :
    IsIdle (other.line row) ∧ Reaches place (row + 1) line := by
  constructor
  · apply spread.idle
    rintro index rfl
    exact Nat.lt_irrefl _ (reaches.past index (spread.lt_iff.mp before))
  · exact ⟨before, fun index earlier => Nat.lt_succ_of_lt (reaches.past index earlier)⟩

theorem line_of_size_le (past : source.size ≤ line) : other.line (place line) = [] := by
  apply Source.line_of_size_le
  rw [← spread.size]
  exact spread.le_iff.mpr past

/-! ## Braces -/

theorem leftOpen_drop (line col : Nat) :
    leftOpen ((other.line (place line)).drop col) = leftOpen ((source.line line).drop col) := by
  obtain ⟨tail, aside, same⟩ := spread.text line
  rw [same, leftOpen_drop_append aside.free]

/-- What waits before a row is what waits before the line that comes next. -/
theorem waiting (reaches : Reaches place row line) (upto : line ≤ source.size) :
    other.waiting row = (source.waiting line).map (Spot.move place) := by
  induction left : other.size - row using Nat.strongRecOn generalizing row line with
  | ind n ih =>
      have within : place line ≤ other.size := spread.size ▸ spread.le_iff.mpr upto
      rcases Nat.eq_or_lt_of_le reaches.upto with rfl | before
      · rcases Nat.eq_or_lt_of_le upto with rfl | inside
        · rw [Source.waiting_of_size_le (Nat.le_refl _),
            Source.waiting_of_size_le (Nat.le_of_eq spread.size.symm)]
          rfl
        · have later : place line < other.size := spread.size ▸ spread.rising inside
          have behind := ih _ (by omega) (spread.reaches_succ line) inside rfl
          obtain ⟨tail, aside, same⟩ := spread.text line
          rw [Source.waiting_eq, same, pairText_append_aside aside.free, behind, pairText_map_move,
            ← Source.waiting_eq]
      · obtain ⟨idle, next⟩ := spread.idle_of_reaches reaches before
        have behind := ih (other.size - (row + 1)) (by omega) next upto rfl
        have clear := pairText_append_aside idle.free row 0 [] (other.waiting (row + 1))
        rw [List.nil_append, pairText_nil] at clear
        rw [Source.waiting_eq, clear, behind]

/-- Where a block ends is renumbered with the lines. -/
theorem closeOf (inside : line < limit) (upto : limit ≤ source.size) (fromCol : Nat) :
    other.pairing.closeOf (place line) fromCol (place limit) =
      (source.pairing.closeOf line fromCol limit).map (Spot.move place) := by
  rw [Source.closeOf_pairing, Source.closeOf_pairing, spread.leftOpen_drop,
    spread.waiting (spread.reaches_succ line) (Nat.le_trans inside upto), List.getElem?_map]
  split
  · rfl
  · cases (source.waiting (line + 1))[leftOpen ((source.line line).drop fromCol) - 1]? with
    | none => rfl
    | some close =>
        have same : (close.move place).line < place limit ↔ close.line < limit := spread.lt_iff
        simp only [Option.map_some, Option.filter_some, same]
        split
        · rfl
        · rfl

/-! ## Openers and the ends of their blocks -/

theorem depthChange_text (line : Nat) :
    depthChange (other.line (place line)) = depthChange (source.line line) := by
  obtain ⟨tail, aside, same⟩ := spread.text line
  rw [same, depthChange_append_of_free aside.free]

theorem blockEnd? (inside : line < limit) (upto : limit ≤ source.size) :
    (Layout.ofSource other).blockEnd? (place line) (place limit) =
      ((Layout.ofSource source).blockEnd? line limit).map (Spot.move place) := by
  have depth : depthChange ((Layout.ofSource other).text (place line)) =
      depthChange ((Layout.ofSource source).text line) := spread.depthChange_text line
  have closes := spread.closeOf inside upto 0
  rw [Layout.blockEnd?, Layout.blockEnd?, depth]
  split
  · exact closes
  · rfl

/-- What follows a brace is followed by an aside. -/
theorem textAfter (on : close.col < (source.line close.line).length) :
    ∃ tail, IsAside tail ∧
      other.textAfter (close.move place) = source.textAfter close ++ tail := by
  obtain ⟨tail, aside, same⟩ := spread.text close.line
  refine ⟨tail, aside, ?_⟩
  change (other.line (place close.line)).drop (close.col + 1) = _
  rw [same, List.drop_append_of_le_length on]
  rfl

/-- The other block of a choice is opened on the next row exactly if it is on the next line. -/
theorem opensOther_next (line limit : Nat) :
    (place line + 1 < place limit ∧ opensOther (other.line (place line + 1))) ↔
      line + 1 < limit ∧ opensOther (source.line (line + 1)) := by
  constructor
  · rintro ⟨inside, opens⟩
    have reaches := spread.reaches_succ line
    rcases Nat.eq_or_lt_of_le reaches.upto with here | before
    · rw [here, spread.lt_iff] at inside
      refine ⟨inside, ?_⟩
      rwa [opensOther, here, spread.code] at opens
    · rw [not_opensOther_of_quiet (spread.idle_of_reaches reaches before).1.quiet] at opens
      cases opens
  · rintro ⟨inside, opens⟩
    rw [← spread.apart line opens, spread.lt_iff]
    refine ⟨inside, ?_⟩
    rwa [opensOther, spread.code]

theorem otherHeader? (on : close.col < (source.line close.line).length) (limit : Nat) :
    (Layout.ofSource other).otherHeader? (close.move place) (place limit) =
      ((Layout.ofSource source).otherHeader? close limit).map fun header =>
        (place header.1, header.2) := by
  obtain ⟨tail, aside, same⟩ := spread.textAfter on
  have empty : (scanCode (source.textAfter close ++ tail)).isEmpty ↔
      (scanCode (source.textAfter close)).isEmpty := by
    rw [List.isEmpty_iff, List.isEmpty_iff, aside.scanCode_append_eq_nil]
  have next := spread.opensOther_next close.line limit
  unfold Layout.otherHeader?
  change (if opensOther (other.textAfter (close.move place)) then _ else _) =
    Option.map _ (if opensOther (source.textAfter close) then _ else _)
  rw [same, aside.opensOther_append]
  split
  · rfl
  · change (if (scanCode (other.textAfter (close.move place))).isEmpty ∧
        place close.line + 1 < place limit ∧ opensOther (other.line (place close.line + 1)) then
      some (place close.line + 1, 0) else none) = Option.map _
        (if (scanCode (source.textAfter close)).isEmpty ∧
          close.line + 1 < limit ∧ opensOther (source.line (close.line + 1)) then
        some (close.line + 1, 0) else none)
    rw [same]
    simp only [empty, next]
    split
    · next follows =>
      rw [← spread.apart close.line follows.2.2]
      rfl
    · rfl

theorem otherBlock? (on : close.col < (source.line close.line).length)
    (inside : close.line < limit) (upto : limit ≤ source.size) :
    (Layout.ofSource other).otherBlock? (close.move place) (place limit) =
      ((Layout.ofSource source).otherBlock? close limit).map fun block =>
        (place block.1, block.2.move place) := by
  rw [Layout.otherBlock?_eq, Layout.otherBlock?_eq, spread.otherHeader? on limit]
  cases opened : (Layout.ofSource source).otherHeader? close limit with
  | none => rfl
  | some header =>
      have bounds := Layout.otherHeader?_line inside opened
      have closes := spread.closeOf bounds.2 upto header.2
      change ((other.pairing.closeOf (place header.1) header.2 (place limit)).map fun stop =>
          (place header.1, stop)) =
        ((source.pairing.closeOf header.1 header.2 limit).map fun stop =>
          (header.1, stop)).map fun block => (place block.1, block.2.move place)
      rw [closes, Option.map_map, Option.map_map]
      rfl

/-! ## Reading -/

/-- What follows the last block of a statement follows it among the rows, and reading goes on with
the same line. -/
theorem afterBlock (on : close.col < (source.line close.line).length)
    (inside : close.line < limit) (upto : limit ≤ source.size) :
    Stmt.allBare ((Layout.ofSource other).afterBlock (close.move place) (place limit)).1.toList =
        Stmt.allBare ((Layout.ofSource source).afterBlock close limit).1.toList ∧
      Reaches place ((Layout.ofSource other).afterBlock (close.move place) (place limit)).2
        ((Layout.ofSource source).afterBlock close limit).2 := by
  obtain ⟨tail, aside, same⟩ := spread.textAfter on
  have empty := aside.scanCode_append_eq_nil (source.textAfter close)
  rw [← same] at empty
  have depth := depthChange_append_of_free aside.free (source.textAfter close)
  rw [← same] at depth
  by_cases quiet : scanCode (source.textAfter close) = []
  · rw [Layout.afterBlock_of_quiet (.ofSource source) limit quiet,
      Layout.afterBlock_of_quiet (.ofSource other) (place limit) (empty.mpr quiet)]
    exact ⟨rfl, spread.reaches_succ close.line⟩
  · obtain ⟨bare, next⟩ := Layout.afterBlock_of_code (.ofSource source) limit quiet
    obtain ⟨bare', next'⟩ :=
      Layout.afterBlock_of_code (.ofSource other) (place limit) (mt empty.mp quiet)
    refine ⟨bare'.trans bare.symm, ?_⟩
    have closes := spread.closeOf inside upto (close.col + 1)
    rw [next, next']
    change Reaches place
      (if 0 < depthChange (other.textAfter (close.move place)) then
        ((other.pairing.closeOf (place close.line) (close.col + 1) (place limit)).map fun stop =>
          stop.line + 1).getD (place limit)
      else place close.line + 1)
      (if 0 < depthChange (source.textAfter close) then
        ((source.pairing.closeOf close.line (close.col + 1) limit).map fun stop =>
          stop.line + 1).getD limit
      else close.line + 1)
    rw [depth, closes]
    split
    · cases source.pairing.closeOf close.line (close.col + 1) limit with
      | none => exact spread.reaches_place limit
      | some stop => exact spread.reaches_succ stop.line
    · exact spread.reaches_succ close.line

theorem form (line : Nat) :
    (Form.ofLine (place line) ((Layout.ofSource other).text (place line))).bare =
      (Form.ofLine line ((Layout.ofSource source).text line)).bare :=
  Form.bare_ofLine (spread.code line) line (place line)

/-- The statement of an opener whose block has no end. -/
theorem unclosed (line limit : Nat) {opener opener' : Opener} (alike : opener.Alike opener') :
    Stmt.allBare [((Layout.ofSource other).unclosed (place line) (place limit) opener').1] =
        Stmt.allBare [((Layout.ofSource source).unclosed line limit opener).1] ∧
      Reaches place ((Layout.ofSource other).unclosed (place line) (place limit) opener').2
        ((Layout.ofSource source).unclosed line limit opener).2 := by
  have depth : depthChange ((Layout.ofSource other).text (place line)) =
      depthChange ((Layout.ofSource source).text line) := spread.depthChange_text line
  constructor
  · cases alike with
    | loop _ _ => rfl
    | branch _ => rfl
    | refused same =>
        change [Stmt.action 0 (.invalid (Fault.bare _))] = [Stmt.action 0 (.invalid (Fault.bare _))]
        rw [same]
  · dsimp only [Layout.unclosed]
    rw [depth]
    split
    · exact spread.reaches_place limit
    · exact spread.reaches_succ line

/-- Within the lines behind `line` and before `limit`, the blocks of `other` are bare those of
`source`. -/
def BlocksAlike (place : Nat → Nat) (source other : Source) (line limit : Nat) : Prop :=
  ∀ first stop row, line < first → stop < limit → Reaches place row first →
    Stmt.allBare ((Layout.ofSource other).block row (place stop)) =
      Stmt.allBare ((Layout.ofSource source).block first stop)

/-- The statement of an opener is the same but for its place if its blocks are. -/
theorem captured (upto : limit ≤ source.size) {opener opener' : Opener}
    (alike : opener.Alike opener')
    (found : (Layout.ofSource source).blockEnd? line limit = some close)
    (blocks : BlocksAlike place source other line limit) :
    Stmt.allBare [((Layout.ofSource other).captured (place line) (place limit)
          (close.move place) opener').1] =
        Stmt.allBare [((Layout.ofSource source).captured line limit close opener).1] ∧
      ((Layout.ofSource other).captured (place line) (place limit) (close.move place) opener').2 =
        ((Layout.ofSource source).captured line limit close opener).2.move place := by
  have ends := Layout.blockEnd?_line found
  have body := blocks (line + 1) close.line (place line + 1) (Nat.lt_succ_self line) ends.2
    (spread.reaches_succ line)
  cases alike with
  | refused same =>
      refine ⟨?_, rfl⟩
      change [Stmt.action 0 (.invalid (Fault.bare _))] = [Stmt.action 0 (.invalid (Fault.bare _))]
      rw [same]
  | loop same bound =>
      refine ⟨?_, rfl⟩
      change [Stmt.loop 0 (VarRef.bare _) bound (Stmt.allBare _)] =
        [Stmt.loop 0 (VarRef.bare _) bound (Stmt.allBare _)]
      rw [same, ← body]
      rfl
  | @branch test test' same =>
      have others := spread.otherBlock? (Source.col_lt_of_blockEnd? found) ends.2 upto
      cases second : (Layout.ofSource source).otherBlock? close limit with
      | none =>
          rw [second] at others
          simp only [Layout.captured, second, others, Option.map_none]
          refine ⟨?_, trivial⟩
          change [Stmt.branch 0 test'.bare (Stmt.allBare _)] =
            [Stmt.branch 0 test.bare (Stmt.allBare _)]
          rw [same, ← body]
          rfl
      | some last =>
          obtain ⟨header, stop⟩ := last
          have bounds := Layout.otherBlock?_line second
          have block := blocks (header + 1) stop.line (place header + 1) (by omega) bounds.2.2
            (spread.reaches_succ header)
          rw [second] at others
          simp only [Layout.captured, second, others, Option.map_some]
          refine ⟨?_, trivial⟩
          change [Stmt.choice 0 test'.bare (Stmt.allBare _) (Stmt.allBare _)] =
            [Stmt.choice 0 test.bare (Stmt.allBare _) (Stmt.allBare _)]
          rw [same, ← body, ← block]
          rfl

/-- What a line adds is what its row adds, but for the places, and reading goes on with the same
line. -/
theorem readLine (inside : line < limit) (upto : limit ≤ source.size)
    (blocks : BlocksAlike place source other line limit) :
    Stmt.allBare ((Layout.ofSource other).readLine (place line) (place limit)).1 =
        Stmt.allBare ((Layout.ofSource source).readLine line limit).1 ∧
      Reaches place ((Layout.ofSource other).readLine (place line) (place limit)).2
        ((Layout.ofSource source).readLine line limit).2 := by
  have same := spread.form line
  cases form : Form.ofLine line ((Layout.ofSource source).text line) with
  | action simple =>
      cases form' : Form.ofLine (place line) ((Layout.ofSource other).text (place line)) with
      | action simple' =>
          rw [form, form'] at same
          rw [Layout.readLine_action form, Layout.readLine_action form']
          refine ⟨?_, spread.reaches_succ line⟩
          rw [Stmt.onLine, Stmt.onLine, Stmt.allBare_action, Stmt.allBare_action,
            Form.action.inj same]
      | opener opener' =>
          rw [form, form'] at same
          cases same
  | opener opener =>
      cases form' : Form.ofLine (place line) ((Layout.ofSource other).text (place line)) with
      | action simple' =>
          rw [form, form'] at same
          cases same
      | opener opener' =>
          rw [form, form'] at same
          have alike := Opener.alike_of_bare (Form.opener.inj same)
          have ends := spread.blockEnd? inside upto
          cases found : (Layout.ofSource source).blockEnd? line limit with
          | none =>
              rw [found] at ends
              rw [Layout.readLine_unclosed form found, Layout.readLine_unclosed form' ends]
              exact spread.unclosed line limit alike
          | some close =>
              rw [found] at ends
              have last := Layout.captured_line opener found
              have on := Source.col_lt_of_captured opener found
              obtain ⟨bare, close'⟩ := spread.captured upto alike found blocks
              obtain ⟨extra, next⟩ := spread.afterBlock on last.2 upto
              rw [Layout.readLine_captured form found, Layout.readLine_captured form' ends]
              rw [close']
              refine ⟨?_, next⟩
              rw [← List.singleton_append, Stmt.allBare_append, bare, extra,
                ← Stmt.allBare_append, List.singleton_append]

/-- The bare block of rows is that of the lines. -/
theorem allBare_block (reaches : Reaches place row line) (upto : limit ≤ source.size) :
    Stmt.allBare ((Layout.ofSource other).block row (place limit)) =
      Stmt.allBare ((Layout.ofSource source).block line limit) := by
  induction left : place limit - row using Nat.strongRecOn generalizing row line limit with
  | ind n ih =>
      rcases Nat.lt_or_ge row (place limit) with within | past
      · rcases Nat.eq_or_lt_of_le reaches.upto with rfl | before
        · have inside := spread.lt_iff.mp within
          have blocks : BlocksAlike place source other line limit := by
            intro first stop later behind inFront reaches'
            have := reaches'.past line behind
            have := spread.rising inFront
            exact ih (place stop - later) (by omega) reaches' (by omega) rfl
          obtain ⟨added, next⟩ := spread.readLine inside upto blocks
          have progress := (Layout.ofSource other).lt_readLine_next within
          rw [Layout.block_eq within, Layout.block_eq inside, Stmt.allBare_append,
            Stmt.allBare_append, added, ih _ (by omega) next upto rfl]
        · obtain ⟨idle, next⟩ := spread.idle_of_reaches reaches before
          rw [Layout.allBare_block_quiet (.ofSource other) (place limit) within idle.quiet]
          exact ih (place limit - (row + 1)) (by omega) next upto rfl
      · have behind : limit ≤ line := spread.le_iff.mp (Nat.le_trans past reaches.upto)
        rw [Layout.block_of_le past, Layout.block_of_le behind]

/-! ## Programs -/

/-- A spread source is balanced exactly if the source is. -/
theorem balanced_iff :
    (Layout.ofSource other).braceFault? = none ↔ (Layout.ofSource source).braceFault? = none := by
  have first := spread.waiting (Reaches.zero place) (Nat.zero_le source.size)
  have taken (line : Nat) : leftOpen (other.line (place line)) = leftOpen (source.line line) :=
    spread.leftOpen_drop line 0
  have behind {line : Nat} (inside : line < source.size) :
      (other.waiting (place line + 1)).length = (source.waiting (line + 1)).length := by
    rw [spread.waiting (spread.reaches_succ line) inside, List.length_map]
  rw [Source.braceFault?_eq_none_iff, Source.braceFault?_eq_none_iff, first, List.map_eq_nil_iff]
  apply and_congr_right
  intro _
  constructor
  · intro enough line
    rcases Nat.lt_or_ge line source.size with inside | past
    · rw [← taken, ← behind inside]
      exact enough (place line)
    · rw [Source.line_of_size_le past]
      exact Nat.zero_le _
  · intro enough row
    by_cases placed : ∃ line, place line = row
    · obtain ⟨line, rfl⟩ := placed
      rcases Nat.lt_or_ge line source.size with inside | past
      · rw [taken, behind inside]
        exact enough line
      · rw [spread.line_of_size_le past]
        exact Nat.zero_le _
    · have idle := spread.idle row (not_exists.mp placed)
      rw [leftOpen, unmatched_of_free idle.free]
      exact Nat.zero_le _

theorem headerBrace? (line : Nat) : other.headerBrace? (place line) = source.headerBrace? line := by
  rw [Source.headerBrace?, Source.headerBrace?, spread.code]

/-- The header of `main` is the same line. -/
theorem mainHeader? :
    other.mainHeader? = source.mainHeader?.map fun header => (place header.1, header.2) := by
  have rows {limit : Nat} (lines : ∀ line < limit, source.headerBrace? line = none) :
      ∀ row < place limit, other.headerBrace? row = none := by
    intro row before
    by_cases placed : ∃ line, place line = row
    · obtain ⟨line, rfl⟩ := placed
      rw [spread.headerBrace?]
      exact lines line (spread.lt_iff.mp before)
    · rw [Source.headerBrace?, (spread.idle row (not_exists.mp placed)).quiet]
      rfl
  cases found : source.mainHeader? with
  | none =>
      rw [Option.map_none, Source.mainHeader?_eq_none_iff, ← spread.size]
      exact rows (Source.mainHeader?_eq_none_iff.mp found)
  | some header =>
      obtain ⟨inside, brace, first⟩ := Source.mainHeader?_eq_some_iff.mp found
      rw [Option.map_some, Source.mainHeader?_eq_some_iff, ← spread.size, spread.headerBrace?]
      exact ⟨spread.rising inside, brace, rows first⟩

end Spread

/-- Two sources are read alike: both are refused for reasons of one group, or the statements to
execute are the same but for their places. -/
inductive Source.ReadAlike (rule : EntryRule) (source other : Source) : Prop
  | refused {fault fault'} (own : Program.ofSource rule source = .error fault)
      (others : Program.ofSource rule other = .error fault') (code : fault'.code = fault.code)
  | read {program program'} (own : Program.ofSource rule source = .ok program)
      (others : Program.ofSource rule other = .ok program')
      (bare : Stmt.allBare program'.body = Stmt.allBare program.body)

theorem Source.ReadAlike.symm {rule : EntryRule} {source other : Source}
    (alike : source.ReadAlike rule other) : other.ReadAlike rule source := by
  cases alike with
  | refused own others code => exact .refused others own code.symm
  | read own others bare => exact .read others own bare.symm

namespace Spread

variable {place : Nat → Nat} {source other : Source} (spread : Spread place source other)

include spread

theorem readAlike_of_balanced (balanced : (Layout.ofSource source).braceFault? = none)
    (rule : EntryRule) : source.ReadAlike rule other := by
  have balanced' := spread.balanced_iff.mpr balanced
  have header := spread.mainHeader?
  cases found : source.mainHeader? with
  | none =>
      rw [found] at header
      cases rule with
      | wholeSource =>
          have region := Source.region_wholeSource found
          have region' := Source.region_wholeSource header
          apply Source.ReadAlike.read (Program.ofSource_of_region balanced region)
            (Program.ofSource_of_region balanced' region')
          rw [← spread.size]
          exact spread.allBare_block (Reaches.zero place) (Nat.le_refl _)
      | mainRequired =>
          have region := Source.region_mainRequired found
          have region' := Source.region_mainRequired header
          exact .refused (Program.ofSource_of_refused balanced region)
            (Program.ofSource_of_refused balanced' region') rfl
  | some main =>
      obtain ⟨line, col⟩ := main
      rw [found] at header
      have inside := (Source.mainHeader?_eq_some_iff.mp found).1
      have region := @Source.region_main source line col rule found
      have region' := @Source.region_main other (place line) col rule header
      have closes := spread.closeOf inside (Nat.le_refl _) col
      rw [spread.size] at closes
      cases ends : source.pairing.closeOf line col source.size with
      | none =>
          rw [ends] at closes region
          rw [closes] at region'
          exact .refused (Program.ofSource_of_refused balanced region)
            (Program.ofSource_of_refused balanced' region') rfl
      | some close =>
          rw [ends] at closes region
          rw [closes] at region'
          apply Source.ReadAlike.read (Program.ofSource_of_region balanced region)
            (Program.ofSource_of_region balanced' region')
          exact spread.allBare_block (spread.reaches_succ line)
            (Nat.le_of_lt (Pairing.closeOf_line ends).2)

/-- A spread source is read as the source is. -/
theorem readAlike (rule : EntryRule) : source.ReadAlike rule other := by
  cases broken : (Layout.ofSource source).braceFault? with
  | none => exact spread.readAlike_of_balanced broken rule
  | some fault =>
      cases broken' : (Layout.ofSource other).braceFault? with
      | none =>
          rw [spread.balanced_iff.mp broken'] at broken
          cases broken
      | some fault' =>
          refine .refused (Program.ofSource_of_braceFault broken)
            (Program.ofSource_of_braceFault broken') ?_
          rw [Program.code_of_braceFault broken, Program.code_of_braceFault broken']

end Spread

end LineScript
