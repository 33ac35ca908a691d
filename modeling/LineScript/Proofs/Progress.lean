import LineScript.Proofs.Capture
import LineScript.Proofs.DepthScan
import LineScript.Proofs.LineOrder

/-!
# Reading makes progress

Reading a range of lines goes on behind every line, and the ranges of the blocks that a line opens
lie strictly inside the range that is read. Both rest on the place of the brace that ends a block:
it stands behind the line of its opener. `Pairing.recordedEnd` looks that brace up without asking for
this, and in the pairing of a source it finds the same brace, because a partner always stands behind
its opening brace.

The ranges that are still to be read form a stack. `Layout.proceed` reads one line of the topmost
range, puts the ranges of its blocks on the stack and leaves the lines behind. How much is still to
be done is `effort`, which no line leaves as it was, so the stack runs empty after a number of steps
that is linear in the number of lines. The statements of a block are those that the lines on top of
the stack add.
-/

namespace LineScript

/-- The end of the block that a line opens at or after a column, as it is on record: the partner of
the first opening brace there that the line itself does not close, wherever that partner stands
before line `limit`. -/
def Pairing.recordedEnd (pairing : Pairing) (line fromCol limit : Nat) : Option Spot :=
  (((pairing.openingsOf line).filter fun brace => fromCol ≤ brace.col).find?
    (Opening.leaves line)).bind fun brace => brace.partner.filter fun close => close.line < limit

/-- In the pairing of a source a block never ends on the line that opens it, or in front of it. -/
theorem Source.closeOf_eq_recordedEnd (source : Source) (line fromCol limit : Nat) :
    source.pairing.closeOf line fromCol limit = source.pairing.recordedEnd line fromCol limit := by
  rw [closeOf_eq_bind, Pairing.recordedEnd]
  cases first : ((source.pairing.openingsOf line).filter fun brace => fromCol ≤ brace.col).find?
      (Opening.leaves line) with
  | none => rfl
  | some brace =>
      rw [Option.bind_some, Option.bind_some]
      cases partner : brace.partner with
      | none => rfl
      | some close =>
          have onLine := (List.mem_filter.mp (List.mem_of_find?_eq_some first)).1
          have elsewhere : close.line ≠ line := by
            have leaves := List.find?_some first
            simpa [Opening.leaves, partner] using leaves
          have behind := lt_line_of_partner onLine partner elsewhere
          simp [Option.filter, behind]

/-! ## The ranges that are pending -/

/-- How much there is to do for some ranges of lines: each line is read, and each range and the
lines that are left of it are looked at once more. -/
def effort : List (Nat × Nat) → Nat
  | [] => 0
  | (line, limit) :: rest => 2 * (limit - line) + 1 + effort rest

theorem effort_append (front back : List (Nat × Nat)) :
    effort (front ++ back) = effort front + effort back := by
  induction front with
  | nil => exact (Nat.zero_add _).symm
  | cons range front ih =>
      rw [List.cons_append, effort, effort, ih]
      omega

namespace Layout

/-- The ranges of the blocks that a line opens. -/
def entered (layout : Layout) (line limit : Nat) : List (Nat × Nat) :=
  match Form.ofLine line (layout.text line) with
  | .action _ => []
  | .opener opener =>
    match layout.blockEnd? line limit with
    | none => []
    | some close => layout.ranges line limit close opener

/-- Reads one line of the topmost range. The blocks that the line opens come before the lines behind
them. A range without lines is taken off. -/
def proceed (layout : Layout) : List (Nat × Nat) → List (Nat × Nat)
  | [] => []
  | (line, limit) :: rest =>
    if line < limit then
      layout.entered line limit ++ ((layout.readLine line limit).2, limit) :: rest
    else rest

/-- The ranges that are left after some steps. -/
def pendingAfter (layout : Layout) : Nat → List (Nat × Nat) → List (Nat × Nat)
  | 0, pending => pending
  | steps + 1, pending => layout.pendingAfter steps (layout.proceed pending)

section

variable {layout : Layout} {line limit first stop : Nat} {range : Nat × Nat}
  {pending front rest : List (Nat × Nat)}

theorem mem_entered_iff :
    range ∈ layout.entered line limit ↔
      ∃ opener close, Form.ofLine line (layout.text line) = .opener opener ∧
        layout.blockEnd? line limit = some close ∧
        range ∈ layout.ranges line limit close opener := by
  rw [entered]
  cases form : Form.ofLine line (layout.text line) with
  | action action => simp
  | opener opener =>
      cases found : layout.blockEnd? line limit with
      | none => simp
      | some close => simp

/-- The range of a block that a line opens is a part of the lines behind it. -/
theorem entered_bounds (mem : range ∈ layout.entered line limit) :
    line + 1 ≤ range.1 ∧ range.1 ≤ range.2 ∧ range.2 < limit := by
  obtain ⟨opener, close, -, found, owned⟩ := mem_entered_iff.mp mem
  rw [ranges_eq_parts] at owned
  obtain ⟨part, inParts, rfl⟩ := List.mem_map.mp owned
  have around := parts_bounds found inParts
  have ends := captured_line opener found
  dsimp only
  omega

/-! ## The stack runs empty -/

/-- The blocks of an opener take less than the lines up to the brace that ends the last of them. -/
theorem effort_ranges_le {close : Spot} (opener : Opener)
    (found : layout.blockEnd? line limit = some close) :
    effort (layout.ranges line limit close opener) ≤
      2 * ((layout.captured line limit close opener).2.line - line) := by
  have ends := blockEnd?_line found
  cases opener with
  | refused fault => exact Nat.zero_le _
  | loop guard bound =>
      simp only [ranges, captured, effort]
      omega
  | branch test =>
      cases other : layout.otherBlock? close limit with
      | none =>
          simp only [ranges, captured, other, Option.map_none, Option.toList_none, effort]
          omega
      | some opened =>
          have := otherBlock?_line other
          simp only [ranges, captured, other, Option.map_some, Option.toList_some, effort]
          omega

/-- What a line leaves to be done is less than what there was. -/
theorem effort_entered_lt (inside : line < limit) :
    effort (layout.entered line limit ++ [((layout.readLine line limit).2, limit)]) <
      2 * (limit - line) + 1 := by
  have progress := layout.lt_readLine_next inside
  rw [effort_append, effort, effort, entered]
  cases form : Form.ofLine line (layout.text line) with
  | action action =>
      simp only [effort]
      omega
  | opener opener =>
      cases found : layout.blockEnd? line limit with
      | none =>
          simp only [effort]
          omega
      | some close =>
          have blocks := effort_ranges_le opener found
          have ends := captured_line opener found
          have behind := captured_lt_next form found
          dsimp only
          omega

theorem effort_proceed_lt (nonempty : pending ≠ []) :
    effort (layout.proceed pending) < effort pending := by
  obtain ⟨⟨line, limit⟩, rest, rfl⟩ := List.exists_cons_of_ne_nil nonempty
  rw [proceed, effort]
  split
  · next inside =>
    have less := layout.effort_entered_lt inside
    rw [effort_append, effort, effort] at less
    rw [effort_append, effort]
    omega
  · omega

/-- As many steps as there is effort leave nothing to be read. -/
theorem pendingAfter_eq_nil {steps : Nat} (enough : effort pending ≤ steps) :
    layout.pendingAfter steps pending = [] := by
  induction steps generalizing pending with
  | zero =>
      cases pending with
      | nil => rfl
      | cons range rest =>
          rw [effort] at enough
          omega
  | succ steps ih =>
      refine ih ?_
      by_cases done : pending = []
      · subst done
        exact Nat.zero_le _
      · have less := layout.effort_proceed_lt done
        omega

/-! ## The ranges stay inside -/

/-- Every range is well formed and a part of the lines from `first` to `stop`. -/
def Inside (first stop : Nat) (pending : List (Nat × Nat)) : Prop :=
  ∀ range ∈ pending, first ≤ range.1 ∧ range.1 ≤ range.2 ∧ range.2 ≤ stop

theorem Inside.proceed (inside : Inside first stop pending) :
    Inside first stop (layout.proceed pending) := by
  cases pending with
  | nil => exact inside
  | cons top rest =>
      obtain ⟨line, limit⟩ := top
      obtain ⟨own, others⟩ := List.forall_mem_cons.mp inside
      dsimp only at own
      rw [Layout.proceed]
      split
      · next more =>
        intro range mem
        rcases List.mem_append.mp mem with block | mem
        · have bounds := entered_bounds block
          omega
        · rcases List.mem_cons.mp mem with rfl | behind
          · have progress := layout.lt_readLine_next more
            have bound := layout.readLine_next_le more
            dsimp only
            omega
          · exact others range behind
      · exact others

theorem Inside.pendingAfter (inside : Inside first stop pending) (steps : Nat) :
    Inside first stop (layout.pendingAfter steps pending) := by
  induction steps generalizing pending with
  | zero => exact inside
  | succ steps ih => exact ih inside.proceed

/-! ## The lines that are read -/

theorem pendingAfter_add (layout : Layout) (steps more : Nat) (pending : List (Nat × Nat)) :
    layout.pendingAfter (steps + more) pending =
      layout.pendingAfter more (layout.pendingAfter steps pending) := by
  induction steps generalizing pending with
  | zero => rw [Nat.zero_add, Layout.pendingAfter]
  | succ steps ih => rw [Nat.succ_add, Layout.pendingAfter, ih, Layout.pendingAfter]

/-- What lies below the topmost range has no influence on a step. -/
theorem proceed_append (nonempty : front ≠ []) (rest : List (Nat × Nat)) :
    layout.proceed (front ++ rest) = layout.proceed front ++ rest := by
  obtain ⟨⟨line, limit⟩, back, rfl⟩ := List.exists_cons_of_ne_nil nonempty
  rw [List.cons_append, proceed, proceed]
  split
  · rw [List.append_assoc, List.cons_append]
  · rfl

/-- The ranges on top of the stack are read, and then those below are left. -/
theorem exists_pendingAfter_append (layout : Layout) (front rest : List (Nat × Nat)) :
    ∃ steps, layout.pendingAfter steps (front ++ rest) = rest := by
  induction left : effort front using Nat.strongRecOn generalizing front with
  | ind amount ih =>
      by_cases done : front = []
      · exact ⟨0, by rw [done]; rfl⟩
      · have less := layout.effort_proceed_lt done
        obtain ⟨steps, read⟩ := ih _ (left ▸ less) (layout.proceed front) rfl
        refine ⟨steps + 1, ?_⟩
        rw [pendingAfter, proceed_append done, read]

/-- A line that is read comes to the top of the stack. -/
theorem Reads.exists_pendingAfter (reads : layout.Reads line limit first stop)
    (rest : List (Nat × Nat)) :
    ∃ steps below, layout.pendingAfter steps ((first, stop) :: rest) = (line, limit) :: below := by
  induction reads generalizing rest with
  | here inside => exact ⟨0, rest, rfl⟩
  | @next first stop inside _ ih =>
      obtain ⟨blocks, drained⟩ := layout.exists_pendingAfter_append (layout.entered first stop)
        (((layout.readLine first stop).2, stop) :: rest)
      obtain ⟨steps, below, top⟩ := ih rest
      refine ⟨blocks + steps + 1, below, ?_⟩
      rw [pendingAfter, proceed, if_pos inside, pendingAfter_add, drained, top]
  | @block first stop opener close range form found owned inner ih =>
      have inside : first < stop := (Reads.block form found owned inner).lt.2
      obtain ⟨front, back, split⟩ := List.append_of_mem
        (mem_entered_iff.mpr ⟨opener, close, form, found, owned⟩)
      -- The blocks in front of this one are read first, those behind it stay below.
      obtain ⟨blocks, drained⟩ := layout.exists_pendingAfter_append front
        (range :: (back ++ ((layout.readLine first stop).2, stop) :: rest))
      obtain ⟨steps, below, top⟩ := ih (back ++ ((layout.readLine first stop).2, stop) :: rest)
      refine ⟨blocks + steps + 1, below, ?_⟩
      rw [pendingAfter, proceed, if_pos inside, split, List.append_assoc, List.cons_append,
        pendingAfter_add, drained, top]

/-- Whatever is read for the ranges on the stack is read for the lines from `first` to `stop`. -/
def ReadsOnly (layout : Layout) (first stop : Nat) (pending : List (Nat × Nat)) : Prop :=
  ∀ range ∈ pending, ∀ line limit, layout.Reads line limit range.1 range.2 →
    layout.Reads line limit first stop

theorem ReadsOnly.proceed (only : layout.ReadsOnly first stop pending) :
    layout.ReadsOnly first stop (layout.proceed pending) := by
  cases pending with
  | nil => exact only
  | cons top rest =>
      obtain ⟨own, others⟩ := List.forall_mem_cons.mp only
      rw [Layout.proceed]
      split
      · next more =>
        intro range mem line limit reads
        rcases List.mem_append.mp mem with block | mem
        · obtain ⟨opener, close, form, found, owned⟩ := mem_entered_iff.mp block
          exact own line limit (.block form found owned reads)
        · rcases List.mem_cons.mp mem with rfl | behind
          · exact own line limit (.next more reads)
          · exact others range behind line limit reads
      · exact others

theorem ReadsOnly.pendingAfter (only : layout.ReadsOnly first stop pending) (steps : Nat) :
    layout.ReadsOnly first stop (layout.pendingAfter steps pending) := by
  induction steps generalizing pending with
  | zero => exact only
  | succ steps ih => exact ih only.proceed

/-- The lines that are read are those that come to the top of the stack. -/
theorem reads_iff_pendingAfter :
    layout.Reads line limit first stop ↔
      line < limit ∧ ∃ steps below,
        layout.pendingAfter steps [(first, stop)] = (line, limit) :: below := by
  constructor
  · intro reads
    exact ⟨reads.lt.1, reads.exists_pendingAfter []⟩
  · rintro ⟨inside, steps, below, top⟩
    have start : layout.ReadsOnly first stop [(first, stop)] := by
      intro range mem line limit reads
      rw [List.mem_singleton.mp mem] at reads
      exact reads
    have only := start.pendingAfter steps
    rw [top] at only
    exact only _ List.mem_cons_self line limit (.here inside)

end

/-- Reading the lines from `first` to `stop` makes progress, stays inside and ends. -/
structure Progresses (layout : Layout) (first stop : Nat) : Prop where
  /-- Reading goes on behind every line and not behind the end. -/
  next : ∀ line, first ≤ line → line < stop →
    line < (layout.readLine line stop).2 ∧ (layout.readLine line stop).2 ≤ stop
  /-- The blocks that a line opens are read from its ranges, -/
  owned : ∀ line, ∀ stmt ∈ (layout.readLine line stop).1, ∀ block ∈ stmt.blocks,
    ∃ range ∈ layout.entered line stop, block = layout.block range.1 range.2
  /-- which are parts of the lines behind it and shorter than the whole. -/
  nested : ∀ line, first ≤ line → line < stop → ∀ range ∈ layout.entered line stop,
    line + 1 ≤ range.1 ∧ range.1 ≤ range.2 ∧ range.2 < stop ∧
      range.2 - range.1 < stop - first
  /-- Nothing is left after two steps for each line and one more. -/
  ends : layout.pendingAfter (2 * (stop - first) + 1) [(first, stop)] = []
  inside : first ≤ stop → ∀ steps, Inside first stop (layout.pendingAfter steps [(first, stop)])
  /-- The statements are those of the lines that come to the top of the stack. -/
  statements : ∀ stmt, Stmt.Within stmt (layout.block first stop) ↔
    ∃ line limit steps below,
      layout.pendingAfter steps [(first, stop)] = (line, limit) :: below ∧ line < limit ∧
        stmt ∈ (layout.readLine line limit).1

theorem progresses (layout : Layout) (first stop : Nat) : layout.Progresses first stop where
  next _ _ inside := ⟨layout.lt_readLine_next inside, layout.readLine_next_le inside⟩
  owned line stmt mem block owned := by
    obtain ⟨opener, close, range, form, found, inRanges, same⟩ :=
      exists_range_of_mem_readLine mem owned
    exact ⟨range, mem_entered_iff.mpr ⟨opener, close, form, found, inRanges⟩, same⟩
  nested line behind inside range mem := by
    have bounds := entered_bounds mem
    omega
  ends := pendingAfter_eq_nil (Nat.le_refl _)
  inside le steps := by
    refine Inside.pendingAfter (fun range mem => ?_) steps
    rw [List.mem_singleton.mp mem]
    exact ⟨Nat.le_refl first, le, Nat.le_refl stop⟩
  statements stmt := by
    rw [within_block]
    constructor
    · rintro ⟨line, limit, reads, mem⟩
      obtain ⟨inside, steps, below, top⟩ := reads_iff_pendingAfter.mp reads
      exact ⟨line, limit, steps, below, top, inside, mem⟩
    · rintro ⟨line, limit, steps, below, top, inside, mem⟩
      exact ⟨line, limit, reads_iff_pendingAfter.mpr ⟨inside, steps, below, top⟩, mem⟩

end Layout

namespace Source

/-- The lines to execute are a part of the source. -/
theorem region_bounds {source : Source} {rule : EntryRule} {region : Region}
    (found : (Layout.ofSource source).region rule = .ok region) :
    region.first ≤ region.stop ∧ region.stop ≤ source.size := by
  refine ⟨?_, (endsAt_region found).le_size⟩
  unfold Layout.region at found
  split at found
  · cases rule with
    | wholeSource =>
        cases found
        exact Nat.zero_le _
    | mainRequired => cases found
  · split at found
    · next close ends =>
      cases found
      exact (Pairing.closeOf_line ends).1
    · cases found

/-- Reading a source always makes progress. -/
structure AlwaysProgresses (source : Source) : Prop where
  /-- A block ends where it is on record, -/
  recorded : ∀ line fromCol limit,
    source.pairing.closeOf line fromCol limit = source.pairing.recordedEnd line fromCol limit
  /-- behind the line of its opener. -/
  behind : ∀ line fromCol limit close,
    source.pairing.recordedEnd line fromCol limit = some close →
      line < close.line ∧ close.line < limit
  reading : ∀ first stop, (Layout.ofSource source).Progresses first stop
  region : ∀ rule region, (Layout.ofSource source).region rule = .ok region →
    region.first ≤ region.stop ∧ region.stop ≤ source.size

/-- Whatever its braces, reading any lines of a source makes progress and ends. -/
theorem alwaysProgresses (source : Source) : source.AlwaysProgresses where
  recorded := source.closeOf_eq_recordedEnd
  behind line fromCol limit close found := by
    rw [← closeOf_eq_recordedEnd] at found
    exact Pairing.closeOf_line found
  reading := (Layout.ofSource source).progresses
  region _ _ found := region_bounds found

end Source

end LineScript
