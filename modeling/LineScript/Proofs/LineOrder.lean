import LineScript.Proofs.Capture

/-!
# The order of lines

Reading takes the lines of a range in order and returns to none of them. The statements of a block,
with those of the blocks in it, start on rising lines: `rising_block` holds of every range, whether
its blocks end or not.

What lies between the statements are the lines on which blocks end or the other block of a choice
is opened. No statement starts there, and if every line is valid there are no others: a line of a
range is read exactly if it does not delimit a block.
-/

namespace LineScript

/-- The words number lines of a range, each of them behind the one before. -/
def Rising (first stop : Nat) (lines : List UInt32) : Prop :=
  ∃ indices : List Nat, indices.Pairwise (· < ·) ∧
    (∀ index ∈ indices, first ≤ index ∧ index < stop) ∧ lines = indices.map UInt32.ofNatClamp

namespace Rising

variable {first mid stop : Nat} {left right lines : List UInt32}

theorem nil (first stop : Nat) : Rising first stop [] :=
  ⟨[], .nil, by simp, rfl⟩

theorem append (before : Rising first mid left) (behind : Rising mid stop right)
    (le : first ≤ mid) (upto : mid ≤ stop) : Rising first stop (left ++ right) := by
  obtain ⟨low, lowRises, lowBounds, rfl⟩ := before
  obtain ⟨high, highRises, highBounds, rfl⟩ := behind
  refine ⟨low ++ high, ?_, ?_, by rw [List.map_append]⟩
  · refine List.pairwise_append.mpr ⟨lowRises, highRises, ?_⟩
    intro index inLow later inHigh
    have := lowBounds index inLow
    have := highBounds later inHigh
    omega
  · intro index mem
    rcases List.mem_append.mp mem with inLow | inHigh
    · have := lowBounds index inLow
      omega
    · have := highBounds index inHigh
      omega

theorem mono (rising : Rising mid stop lines) (le : first ≤ mid) {stop' : Nat}
    (upto : stop ≤ stop') : Rising first stop' lines := by
  obtain ⟨indices, rises, bounds, rfl⟩ := rising
  refine ⟨indices, rises, ?_, rfl⟩
  intro index mem
  have := bounds index mem
  omega

theorem single (index : Nat) : Rising index (index + 1) [UInt32.ofNatClamp index] :=
  ⟨[index], List.pairwise_singleton _ _, by simp, rfl⟩

theorem cons (later : Rising (first + 1) stop lines) (inside : first < stop) :
    Rising first stop (UInt32.ofNatClamp first :: lines) :=
  (single first).append later (Nat.le_succ first) inside

/-- Lines whose numbers fit in a word rise as numbers, within the same bounds. -/
theorem map_toNat (rising : Rising first stop lines) (small : stop ≤ UInt32.size) :
    (lines.map UInt32.toNat).Pairwise (· < ·) ∧
      ∀ index ∈ lines.map UInt32.toNat, first ≤ index ∧ index < stop := by
  obtain ⟨indices, rises, bounds, rfl⟩ := rising
  have same : (indices.map UInt32.ofNatClamp).map UInt32.toNat = indices := by
    rw [List.map_map]
    refine (List.map_congr_left ?_).trans (List.map_id indices)
    intro index mem
    have inside := bounds index mem
    exact Pos.clamped_line 0 (by omega)
  rw [same]
  exact ⟨rises, bounds⟩

end Rising

namespace Stmt

/-- Whether a statement is not an invalid one. -/
def valid : Stmt → Bool
  | .action _ (.invalid _) => false
  | _ => true

/-- The lines on which the statements of a tree start, in reading order. -/
def startLines (stmts : List Stmt) : List Nat :=
  (listing stmts).map fun row => row.stmt.line.toNat

theorem startLines_eq (stmts : List Stmt) :
    startLines stmts = ((allInOrder stmts).map line).map UInt32.toNat := by
  rw [startLines, ← map_stmt_listing, List.map_map, List.map_map]
  rfl

theorem mem_startLines {stmts : List Stmt} {index : Nat} :
    index ∈ startLines stmts ↔ ∃ stmt : Stmt, stmt.Within stmts ∧ stmt.line.toNat = index := by
  simp only [startLines_eq, List.map_map, List.mem_map, mem_allInOrder, Function.comp_apply]

end Stmt

namespace Layout

variable {layout : Layout} {first stop line limit index : Nat}

/-! ## Statements on rising lines -/

/-- The blocks of an opener lie in rising ranges, each of them before the brace that ends the
last. -/
theorem rising_ranges {opener : Opener} {close : Spot}
    (found : layout.blockEnd? line limit = some close) {linesOf : Nat × Nat → List UInt32}
    (rising : ∀ range ∈ layout.ranges line limit close opener,
      Rising range.1 range.2 (linesOf range)) :
    Rising (line + 1) (layout.captured line limit close opener).2.line
      ((layout.ranges line limit close opener).flatMap linesOf) := by
  have inside := blockEnd?_line found
  cases opener with
  | refused fault => exact .nil _ _
  | loop guard bound =>
      rw [ranges, List.flatMap_singleton]
      exact rising _ List.mem_cons_self
  | branch test =>
      have own := rising (line + 1, close.line) List.mem_cons_self
      cases other : layout.otherBlock? close limit with
      | none =>
          simp only [ranges, captured, other, Option.map_none, Option.toList_none,
            List.flatMap_singleton]
          exact own
      | some block =>
          obtain ⟨header, stop⟩ := block
          have order := otherBlock?_line other
          have second := rising (header + 1, stop.line) (by simp [ranges, other])
          simp only [ranges, captured, other, Option.map_some, Option.toList_some,
            List.flatMap_cons, List.flatMap_nil, List.append_nil]
          exact own.append (second.mono (by dsimp only; omega) (Nat.le_refl _)) inside.1
            (by dsimp only; omega)

theorem captured_starts (opener : Opener) (close : Spot) :
    (layout.captured line limit close opener).1.line = UInt32.ofNatClamp line := by
  cases opener with
  | refused fault => rfl
  | loop guard bound => rfl
  | branch test =>
      dsimp only [captured]
      split
      · rfl
      · rfl

/-- The statement of an opener and those of its blocks start on rising lines, if those of each block
do. -/
theorem rising_captured (opener : Opener) {close : Spot}
    (found : layout.blockEnd? line limit = some close)
    (rising : ∀ range ∈ layout.ranges line limit close opener,
      Rising range.1 range.2 ((Stmt.allInOrder (layout.block range.1 range.2)).map Stmt.line)) :
    Rising line (layout.captured line limit close opener).2.line
      ((layout.captured line limit close opener).1.inOrder.map Stmt.line) := by
  have inner := rising_ranges found rising
  rw [Stmt.inOrder_eq, captured_blocks, List.flatMap_map, List.map_cons, List.map_flatMap,
    captured_starts]
  exact inner.cons (captured_line opener found).1

/-- What a line adds starts on rising lines before the next line, if the blocks that it opens do. -/
theorem rising_readLine (inside : line < limit)
    (rising : ∀ opener close, layout.blockEnd? line limit = some close →
      ∀ range ∈ layout.ranges line limit close opener,
        Rising range.1 range.2 ((Stmt.allInOrder (layout.block range.1 range.2)).map Stmt.line)) :
    Rising line (layout.readLine line limit).2
      ((Stmt.allInOrder (layout.readLine line limit).1).map Stmt.line) := by
  have progress := layout.lt_readLine_next inside
  cases form : Form.ofLine line (layout.text line) with
  | action action =>
      rw [readLine_action form]
      exact Rising.single line
  | opener opener =>
      cases found : layout.blockEnd? line limit with
      | none =>
          rw [readLine_unclosed form found] at progress ⊢
          exact (Rising.single line).mono (Nat.le_refl line) progress
      | some close =>
          have own := captured_line opener found
          have behind := layout.lt_afterBlock_next own.2
          have statement := rising_captured opener found (rising opener close found)
          rw [readLine_captured form found, Stmt.allInOrder, List.map_append]
          apply statement.append _ (Nat.le_of_lt own.1) (Nat.le_of_lt behind)
          cases extra : (layout.afterBlock (layout.captured line limit close opener).2 limit).1 with
          | none => exact .nil _ _
          | some stmt =>
              obtain ⟨text, pos, rfl⟩ := afterBlock_extra extra
              exact (Rising.single _).mono (Nat.le_refl _) behind

/-- The statements of a block and of the blocks in it start on rising lines. -/
theorem rising_block (layout : Layout) (first stop : Nat) :
    Rising first stop ((Stmt.allInOrder (layout.block first stop)).map Stmt.line) := by
  induction left : stop - first using Nat.strongRecOn generalizing first stop with
  | ind n ih =>
      rcases Nat.lt_or_ge first stop with inside | past
      · have progress := layout.lt_readLine_next inside
        have upto := layout.readLine_next_le inside
        have own := layout.rising_readLine inside (by
          intro opener close found range mem
          have bounds := ranges_bounds found mem
          exact ih (range.2 - range.1) (by omega) range.1 range.2 rfl)
        have later := ih (stop - (layout.readLine first stop).2) (by omega) _ stop rfl
        rw [block_eq inside, Stmt.allInOrder_append, List.map_append]
        exact own.append later (Nat.le_of_lt progress) upto
      · rw [block_of_le past]
        exact .nil _ _

/-- The numbers of these lines rise from the first line of the range to its last. -/
theorem startLines_block (layout : Layout) (first : Nat) (small : stop ≤ UInt32.size) :
    (Stmt.startLines (layout.block first stop)).Pairwise (· < ·) ∧
      ∀ index ∈ Stmt.startLines (layout.block first stop), first ≤ index ∧ index < stop := by
  rw [Stmt.startLines_eq]
  exact (layout.rising_block first stop).map_toNat small

/-! ## Lines between the statements -/

/-- The blocks of an opener whose first block ends at `close`: the line that opens each of them, and
the brace that ends it. -/
def parts (layout : Layout) (line limit : Nat) (close : Spot) : Opener → List (Nat × Spot)
  | .refused _ => []
  | .loop _ _ => [(line, close)]
  | .branch _ => (line, close) :: (layout.otherBlock? close limit).toList

theorem ranges_eq_parts (close : Spot) (opener : Opener) :
    layout.ranges line limit close opener =
      (layout.parts line limit close opener).map fun part => (part.1 + 1, part.2.line) := by
  cases opener with
  | refused fault => rfl
  | loop guard bound => rfl
  | branch test =>
      dsimp only [ranges, parts]
      cases layout.otherBlock? close limit with
      | none => rfl
      | some other => rfl

/-- Each block of an opener is opened on its line or behind it, and ends at its last brace or before
it. -/
theorem parts_bounds {opener : Opener} {close : Spot} {part : Nat × Spot}
    (found : layout.blockEnd? line limit = some close)
    (mem : part ∈ layout.parts line limit close opener) :
    line ≤ part.1 ∧ part.1 < part.2.line ∧
      part.2.line ≤ (layout.captured line limit close opener).2.line := by
  have inside := blockEnd?_line found
  cases opener with
  | refused fault => cases mem
  | loop guard bound =>
      cases List.mem_singleton.mp mem
      exact ⟨Nat.le_refl _, inside.1, Nat.le_refl _⟩
  | branch test =>
      cases other : layout.otherBlock? close limit with
      | none =>
          simp only [parts, other, Option.toList_none, List.mem_singleton] at mem
          simp only [captured, other, mem]
          exact ⟨Nat.le_refl _, inside.1, Nat.le_refl _⟩
      | some block =>
          obtain ⟨header, stop⟩ := block
          have order := otherBlock?_line other
          simp only [parts, other, Option.toList_some, List.mem_cons, List.not_mem_nil,
            or_false] at mem
          simp only [captured, other]
          rcases mem with rfl | rfl
          · dsimp only
            omega
          · dsimp only
            omega

/-- Of two blocks of an opener one ends before the other is opened, or where it is. -/
theorem parts_apart {opener : Opener} {close : Spot} {part other : Nat × Spot}
    (mem : part ∈ layout.parts line limit close opener)
    (mem' : other ∈ layout.parts line limit close opener) :
    part = other ∨ part.2.line ≤ other.1 ∨ other.2.line ≤ part.1 := by
  have order : (layout.parts line limit close opener).Pairwise fun part other =>
      part.2.line ≤ other.1 := by
    cases opener with
    | refused fault => exact .nil
    | loop guard bound => exact List.pairwise_singleton _ _
    | branch test =>
        dsimp only [parts]
        cases found : layout.otherBlock? close limit with
        | none => exact List.pairwise_singleton _ _
        | some block => simpa using (otherBlock?_line found).1
  obtain ⟨i, inside, rfl⟩ := List.mem_iff_getElem.mp mem
  obtain ⟨j, inside', rfl⟩ := List.mem_iff_getElem.mp mem'
  rcases Nat.lt_trichotomy i j with lt | rfl | gt
  · exact .inr (.inl (List.pairwise_iff_getElem.mp order i j inside inside' lt))
  · exact .inl rfl
  · exact .inr (.inr (List.pairwise_iff_getElem.mp order j i inside' inside gt))

/-- The other block of a choice is opened by all the code behind the first block, or by that of the
line behind it. -/
theorem otherBlock?_opens {close : Spot} {header : Nat} {stop : Spot}
    (other : layout.otherBlock? close limit = some (header, stop)) :
    header = close.line ∧ opensOther (layout.source.textAfter close) ∨
      header = close.line + 1 ∧ scanCode (layout.source.textAfter close) = [] ∧
        opensOther (layout.text header) := by
  rw [otherBlock?_eq] at other
  obtain ⟨place, opened, found⟩ := Option.bind_eq_some_iff.mp other
  obtain ⟨_, -, same⟩ := Option.map_eq_some_iff.mp found
  cases same
  rcases otherHeader?_opens opened with ⟨rfl, here⟩ | ⟨rfl, follows⟩
  · exact .inl ⟨rfl, here⟩
  · exact .inr ⟨rfl, follows⟩

/-- Behind an opener of a known form there is no line, up to its last brace, but those of its
blocks. -/
theorem exists_part {opener : Opener} {close : Spot} (known : opener.known) (after : line < index)
    (upto : index ≤ (layout.captured line limit close opener).2.line) :
    ∃ part ∈ layout.parts line limit close opener,
      part.1 ≤ index ∧ index ≤ part.2.line := by
  cases opener with
  | refused fault => cases known
  | loop guard bound => exact ⟨_, List.mem_cons_self, Nat.le_of_lt after, upto⟩
  | branch test =>
      cases other : layout.otherBlock? close limit with
      | none =>
          simp only [captured, other] at upto
          exact ⟨_, List.mem_cons_self, Nat.le_of_lt after, upto⟩
      | some block =>
          obtain ⟨header, stop⟩ := block
          simp only [captured, other] at upto
          have order := otherBlock?_line other
          have near : header ≤ close.line + 1 := by
            rcases otherBlock?_opens other with ⟨same, -⟩ | ⟨next, -⟩
            · omega
            · omega
          rcases Nat.lt_or_ge close.line index with behind | within
          · refine ⟨(header, stop), ?_, ?_, upto⟩
            · simp [parts, other]
            · dsimp only
              omega
          · exact ⟨_, List.mem_cons_self, Nat.le_of_lt after, within⟩

/-- The statement on line `line`, among those of the lines from `first` to `stop`, owns a block that
the line `header` opens and the brace at `close` ends. -/
def Captures (layout : Layout) (first stop line header : Nat) (close : Spot) : Prop :=
  ∃ limit opener own, layout.Reads line limit first stop ∧
    Form.ofLine line (layout.text line) = .opener opener ∧
    layout.blockEnd? line limit = some own ∧
    (header, close) ∈ layout.parts line limit own opener

/-- On the line `index` a block of the lines from `first` to `stop` ends, or the other block of a
choice is opened. -/
def Delimits (layout : Layout) (first stop index : Nat) : Prop :=
  ∃ line header close, layout.Captures first stop line header close ∧
    (close.line = index ∨ header = index ∧ line < index)

/-- The last brace of an opener lies before the next line that is read. -/
theorem captured_lt_next {opener : Opener} {close : Spot}
    (form : Form.ofLine line (layout.text line) = .opener opener)
    (found : layout.blockEnd? line limit = some close) :
    (layout.captured line limit close opener).2.line < (layout.readLine line limit).2 := by
  rw [readLine_captured form found]
  exact lt_afterBlock_next (captured_line opener found).2

/-- A block that the line `line` owns, read before line `limit`, has the line `index` in it. -/
def Encloses (layout : Layout) (line limit index : Nat) : Prop :=
  ∃ opener close part, Form.ofLine line (layout.text line) = .opener opener ∧
    layout.blockEnd? line limit = some close ∧ part ∈ layout.parts line limit close opener ∧
    part.1 < index ∧ index < part.2.line

/-- Of two lines that are read, one lies behind what the other has added, or in a block of the
other. -/
theorem Reads.compare {line' limit' : Nat} (reads : layout.Reads line limit first stop)
    (reads' : layout.Reads line' limit' first stop) :
    line = line' ∧ limit = limit' ∨
      (layout.readLine line limit).2 ≤ line' ∨ (layout.readLine line' limit').2 ≤ line ∨
      layout.Encloses line limit line' ∨ layout.Encloses line' limit' line := by
  -- The two ways through the range are followed side by side until they part.
  induction reads with
  | here inside =>
      cases reads' with
      | here _ => exact .inl ⟨rfl, rfl⟩
      | next _ rest => exact .inr (.inl rest.bounds.1)
      | block form found owned rest =>
          rw [ranges_eq_parts] at owned
          obtain ⟨part, mem, rfl⟩ := List.mem_map.mp owned
          have := rest.bounds
          have := rest.lt
          exact .inr (.inr (.inr (.inl ⟨_, _, part, form, found, mem, by omega, by omega⟩)))
  | next inside rest ih =>
      cases reads' with
      | here _ => exact .inr (.inr (.inl rest.bounds.1))
      | next _ rest' => exact ih rest'
      | block form found owned rest' =>
          have := captured_lt_next form found
          have := layout.readLine_next_le rest'.lt.1
          have := rest'.bounds
          have := rest.bounds
          rw [ranges_eq_parts] at owned
          obtain ⟨part, mem, rfl⟩ := List.mem_map.mp owned
          have := parts_bounds found mem
          exact .inr (.inr (.inl (by omega)))
  | block form found owned rest ih =>
      have below := rest.lt
      have inner := rest.bounds
      have next := layout.readLine_next_le below.1
      rw [ranges_eq_parts] at owned
      obtain ⟨part, mem, rfl⟩ := List.mem_map.mp owned
      have around := parts_bounds found mem
      cases reads' with
      | here _ =>
          exact .inr (.inr (.inr (.inr ⟨_, _, part, form, found, mem, by omega, by omega⟩)))
      | next _ rest' =>
          have := captured_lt_next form found
          have := rest'.bounds
          exact .inr (.inl (by omega))
      | block form' found' owned' rest' =>
          cases form'.symm.trans form
          cases found'.symm.trans found
          rw [ranges_eq_parts] at owned'
          obtain ⟨other, mem', rfl⟩ := List.mem_map.mp owned'
          have := rest'.bounds
          have := layout.readLine_next_le rest'.lt.1
          rcases parts_apart mem mem' with rfl | before | behind
          · exact ih rest'
          · exact .inr (.inl (by omega))
          · exact .inr (.inr (.inl (by omega)))

/-- No statement starts on a line that delimits a block. -/
theorem not_delimits_of_reads (reads : layout.Reads index limit first stop) :
    ¬ layout.Delimits first stop index := by
  rintro ⟨line, header, close, ⟨_, opener, own, reads', form, found, mem⟩, at_index⟩
  have order := parts_bounds found mem
  have last := captured_lt_next form found
  have progress := layout.lt_readLine_next reads.lt.1
  dsimp only at order
  rcases reads.compare reads' with ⟨rfl, rfl⟩ | before | behind | outside | inside
  · omega
  · omega
  · omega
  · obtain ⟨_, _, part, _, found', mem', after, _⟩ := outside
    have := parts_bounds found' mem'
    omega
  · obtain ⟨_, _, part, form', found', mem', after, upto⟩ := inside
    cases form'.symm.trans form
    cases found'.symm.trans found
    rcases parts_apart mem mem' with rfl | before | behind
    · dsimp only at after upto
      omega
    · dsimp only at before
      omega
    · dsimp only at behind
      omega

/-! ## Valid lines -/

/-- What the lines of a range add is valid if every statement of the range is. -/
theorem valid_readLine (valid : ∀ stmt, Stmt.Within stmt (layout.block first stop) → stmt.valid)
    (reads : layout.Reads line limit first stop) :
    ∀ stmt ∈ (layout.readLine line limit).1, stmt.valid := by
  intro stmt mem
  exact valid stmt (within_block.mpr ⟨line, limit, reads, mem⟩)

/-- A valid opener has a known form, and no code stands behind its last brace. -/
theorem captured_of_valid {opener : Opener} {close : Spot}
    (valid : ∀ stmt ∈ (layout.readLine line limit).1, stmt.valid)
    (form : Form.ofLine line (layout.text line) = .opener opener)
    (found : layout.blockEnd? line limit = some close) :
    opener.known ∧
      scanCode (layout.source.textAfter (layout.captured line limit close opener).2) = [] ∧
      layout.readLine line limit = ([(layout.captured line limit close opener).1],
        (layout.captured line limit close opener).2.line + 1) := by
  rw [readLine_captured form found] at valid ⊢
  constructor
  · cases opener with
    | refused fault => cases valid _ List.mem_cons_self
    | loop guard bound => rfl
    | branch test => rfl
  · generalize (layout.captured line limit close opener).2 = last at valid ⊢
    unfold afterBlock at valid ⊢
    dsimp only at valid ⊢
    split
    · next none_behind => exact ⟨none_behind, rfl⟩
    · next code =>
      rw [code] at valid
      cases valid _ (List.mem_cons_of_mem _ List.mem_cons_self)

/-- A valid line is a statement of its own, or it opens blocks that end. -/
theorem form_of_valid (valid : ∀ stmt ∈ (layout.readLine line limit).1, stmt.valid) :
    (∃ action, layout.readLine line limit = ([.onLine line action], line + 1)) ∨
      ∃ opener close, Form.ofLine line (layout.text line) = .opener opener ∧
        layout.blockEnd? line limit = some close := by
  cases form : Form.ofLine line (layout.text line) with
  | action action => exact .inl ⟨action, readLine_action form⟩
  | opener opener =>
      cases found : layout.blockEnd? line limit with
      | none =>
          rw [readLine_unclosed form found] at valid
          cases valid _ List.mem_cons_self
      | some close => exact .inr ⟨opener, close, rfl, rfl⟩

/-- A valid line adds one statement, which starts on it. -/
theorem readLine_of_valid (valid : ∀ stmt ∈ (layout.readLine line limit).1, stmt.valid) :
    ∃ stmt, (layout.readLine line limit).1 = [stmt] ∧ stmt.line = UInt32.ofNatClamp line := by
  rcases form_of_valid valid with ⟨action, read⟩ | ⟨opener, close, form, found⟩
  · rw [read]
    exact ⟨_, rfl, rfl⟩
  · obtain ⟨-, -, read⟩ := captured_of_valid valid form found
    rw [read]
    exact ⟨_, rfl, captured_starts opener close⟩

/-- A statement of a block of an opener is within the range of the opener. -/
theorem within_of_range {opener : Opener} {close : Spot} {range : Nat × Nat} {stmt : Stmt}
    (form : Form.ofLine first (layout.text first) = .opener opener)
    (found : layout.blockEnd? first stop = some close)
    (owned : range ∈ layout.ranges first stop close opener)
    (within : Stmt.Within stmt (layout.block range.1 range.2)) :
    Stmt.Within stmt (layout.block first stop) := by
  obtain ⟨line, limit, reads, mem⟩ := within_block.mp within
  exact within_block.mpr ⟨line, limit, .block form found owned reads, mem⟩

/-- The lines that delimit the blocks of a range lie in it. -/
theorem Delimits.bounds (delimits : layout.Delimits first stop index) :
    first ≤ index ∧ index < stop := by
  obtain ⟨line, header, close, ⟨limit, opener, own, reads, form, found, mem⟩, at_index⟩ := delimits
  have order := parts_bounds found mem
  have last := captured_line opener found
  have bounds := reads.bounds
  dsimp only at order
  omega

theorem Delimits.later (inside : first < stop)
    (delimits : layout.Delimits (layout.readLine first stop).2 stop index) :
    layout.Delimits first stop index := by
  obtain ⟨line, header, close, ⟨limit, opener, own, reads, shape⟩, at_index⟩ := delimits
  exact ⟨line, header, close, ⟨limit, opener, own, .next inside reads, shape⟩, at_index⟩

theorem Delimits.inner {opener : Opener} {close : Spot} {range : Nat × Nat}
    (form : Form.ofLine first (layout.text first) = .opener opener)
    (found : layout.blockEnd? first stop = some close)
    (owned : range ∈ layout.ranges first stop close opener)
    (delimits : layout.Delimits range.1 range.2 index) : layout.Delimits first stop index := by
  obtain ⟨line, header, spot, ⟨limit, opener', own, reads, shape⟩, at_index⟩ := delimits
  exact ⟨line, header, spot, ⟨limit, opener', own, .block form found owned reads, shape⟩, at_index⟩

/-- Every line of a valid range is read, or it delimits a block. -/
theorem reads_or_delimits
    (valid : ∀ stmt, Stmt.Within stmt (layout.block first stop) → stmt.valid)
    (after : first ≤ index) (before : index < stop) :
    (∃ limit, layout.Reads index limit first stop) ∨ layout.Delimits first stop index := by
  induction left : stop - first using Nat.strongRecOn generalizing first stop with
  | ind n ih =>
      have inside : first < stop := by omega
      rcases Nat.eq_or_lt_of_le after with rfl | behind
      · exact .inl ⟨stop, .here inside⟩
      rcases Nat.lt_or_ge index (layout.readLine first stop).2 with own | later
      · have line_valid := valid_readLine valid (.here inside)
        rcases form_of_valid line_valid with ⟨action, read⟩ | ⟨opener, close, form, found⟩
        · rw [read] at own
          omega
        · obtain ⟨known, -, read⟩ := captured_of_valid line_valid form found
          rw [read] at own
          obtain ⟨part, mem, opened, upto⟩ := exists_part known behind (Nat.le_of_lt_succ own)
          have captures : layout.Captures first stop first part.1 part.2 :=
            ⟨stop, opener, close, .here inside, form, found, mem⟩
          rcases Nat.eq_or_lt_of_le opened with header | opened
          · exact .inr ⟨first, part.1, part.2, captures, .inr ⟨header, behind⟩⟩
          rcases Nat.eq_or_lt_of_le upto with closes | upto
          · exact .inr ⟨first, part.1, part.2, captures, .inl closes.symm⟩
          -- The line is in the block, whose statements are valid too.
          have owned : (part.1 + 1, part.2.line) ∈ layout.ranges first stop close opener := by
            rw [ranges_eq_parts]
            exact List.mem_map.mpr ⟨part, mem, rfl⟩
          have bounds := ranges_bounds found owned
          have inner (stmt) (within : Stmt.Within stmt (layout.block (part.1 + 1) part.2.line)) :
              stmt.valid := valid stmt (within_of_range form found owned within)
          rcases ih (part.2.line - (part.1 + 1)) (by omega) inner opened upto rfl with
            ⟨limit, reads⟩ | delimits
          · exact .inl ⟨limit, .block form found owned reads⟩
          · exact .inr (delimits.inner form found owned)
      · have progress := layout.lt_readLine_next inside
        have behind (stmt)
            (within : Stmt.Within stmt (layout.block (layout.readLine first stop).2 stop)) :
            stmt.valid := by
          apply valid
          rw [block_eq inside]
          exact Stmt.within_append.mpr (.inr within)
        rcases ih (stop - (layout.readLine first stop).2) (by omega) behind later before rfl with
          ⟨limit, reads⟩ | delimits
        · exact .inl ⟨limit, .next inside reads⟩
        · exact .inr (delimits.later inside)

/-- In a valid range exactly one statement starts on each line that is read, and on no other. -/
theorem count_startLines
    (valid : ∀ stmt, Stmt.Within stmt (layout.block first stop) → stmt.valid)
    (small : stop ≤ UInt32.size) :
    (Stmt.startLines (layout.block first stop)).count index = 1 ↔
      ∃ limit, layout.Reads index limit first stop := by
  have distinct : (Stmt.startLines (layout.block first stop)).Nodup :=
    (layout.startLines_block first small).1.imp Nat.ne_of_lt
  have starts {line limit : Nat} (reads : layout.Reads line limit first stop) :
      ∃ stmt, (layout.readLine line limit).1 = [stmt] ∧ stmt.line.toNat = line := by
    obtain ⟨stmt, read, same⟩ := readLine_of_valid (valid_readLine valid reads)
    have bounds := reads.bounds
    have below := reads.lt
    refine ⟨stmt, read, ?_⟩
    rw [same]
    exact Pos.clamped_line 0 (by omega)
  have mem_iff : index ∈ Stmt.startLines (layout.block first stop) ↔
      ∃ limit, layout.Reads index limit first stop := by
    rw [Stmt.mem_startLines]
    constructor
    · rintro ⟨stmt, within, rfl⟩
      obtain ⟨line, limit, reads, added⟩ := within_block.mp within
      obtain ⟨only, read, start⟩ := starts reads
      rw [read, List.mem_singleton] at added
      rw [added, start]
      exact ⟨limit, reads⟩
    · rintro ⟨limit, reads⟩
      obtain ⟨stmt, read, start⟩ := starts reads
      refine ⟨stmt, within_block.mpr ⟨index, limit, reads, ?_⟩, start⟩
      rw [read]
      exact List.mem_cons_self
  rw [distinct.count, ← mem_iff]
  split
  · next mem => simp [mem]
  · next missing => simp [missing]

end Layout

end LineScript
