import LineScript.Proofs.Moved
import LineScript.Proofs.Reading

/-!
# Ranges of lines in another place

Reading a range of lines looks at the texts of these lines and at where their blocks end inside the
range, and at nothing else. If both agree with those of another range some rows further down, so do
the statements that are read: `Relocated.block` moves the block of the range down.

The range may also stay where it is. Then two sources that differ elsewhere have the same block.
-/

namespace LineScript

theorem ofNatClamp_add {line rows : Nat} (small : line + rows < UInt32.size) :
    UInt32.ofNatClamp (line + rows) = UInt32.ofNatClamp line + UInt32.ofNat rows := by
  have both : (UInt32.ofNatClamp (line + rows)).toNat = line + rows := Pos.clamped_line 0 small
  have own : (UInt32.ofNatClamp line).toNat = line := Pos.clamped_line 0 (by omega)
  apply UInt32.toNat.inj
  rw [both, UInt32.toNat_add, own, UInt32.toNat_ofNat', Nat.add_mod_mod]
  exact (Nat.mod_eq_of_lt small).symm

def Spot.down (rows : Nat) (spot : Spot) : Spot :=
  ⟨spot.line + rows, spot.col⟩

namespace Layout

/-- The lines of `layout` from `first` to `stop` stand in `moved` too, `rows` further down, and
their blocks end there alike. -/
structure Relocated (layout moved : Layout) (rows first stop : Nat) : Prop where
  text : ∀ line, first ≤ line → line < stop → moved.text (line + rows) = layout.text line
  closes : ∀ line fromCol limit, first ≤ line → line < limit → limit ≤ stop →
    moved.pairing.closeOf (line + rows) fromCol (limit + rows) =
      (layout.pairing.closeOf line fromCol limit).map (Spot.down rows)
  number : ∀ line, first ≤ line → line < stop →
    UInt32.ofNatClamp (line + rows) = UInt32.ofNatClamp line + UInt32.ofNat rows

namespace Relocated

variable {layout moved : Layout} {rows first stop line limit : Nat} {close : Spot}

theorem clamped_down (relocated : Relocated layout moved rows first stop) (after : first ≤ line)
    (before : line < stop) (col : Nat) :
    Pos.clamped (line + rows) col = (Pos.clamped line col).down (UInt32.ofNat rows) :=
  Pos.clamped_down (relocated.number line after before) col

theorem textAfter (relocated : Relocated layout moved rows first stop)
    (after : first ≤ close.line) (before : close.line < stop) :
    moved.source.textAfter (close.down rows) = layout.source.textAfter close := by
  have text := relocated.text close.line after before
  rw [Layout.text, Layout.text] at text
  rw [Source.textAfter, Source.textAfter, ← text]
  rfl

theorem blockEnd? (relocated : Relocated layout moved rows first stop) (after : first ≤ line)
    (inside : line < limit) (upto : limit ≤ stop) :
    moved.blockEnd? (line + rows) (limit + rows) =
      (layout.blockEnd? line limit).map (Spot.down rows) := by
  rw [Layout.blockEnd?, Layout.blockEnd?, relocated.text line after (by omega),
    relocated.closes line 0 limit after inside upto]
  split
  · rfl
  · rfl

theorem otherHeader? (relocated : Relocated layout moved rows first stop)
    (after : first ≤ close.line) (inside : close.line < limit) (upto : limit ≤ stop) :
    moved.otherHeader? (close.down rows) (limit + rows) =
      (layout.otherHeader? close limit).map fun header => (header.1 + rows, header.2) := by
  have next : (close.line + rows + 1 < limit + rows ∧
        opensOther (moved.text (close.line + rows + 1)) ↔
      close.line + 1 < limit ∧ opensOther (layout.text (close.line + 1))) := by
    rw [show close.line + rows + 1 < limit + rows ↔ close.line + 1 < limit by omega]
    apply and_congr_right
    intro within
    rw [Nat.add_right_comm, relocated.text (close.line + 1) (by omega) (by omega)]
  unfold Layout.otherHeader?
  rw [relocated.textAfter after (by omega)]
  simp only [Spot.down, next]
  split
  · rfl
  · split
    · rw [Option.map_some, Nat.add_right_comm]
    · rfl

theorem otherBlock? (relocated : Relocated layout moved rows first stop)
    (after : first ≤ close.line) (inside : close.line < limit) (upto : limit ≤ stop) :
    moved.otherBlock? (close.down rows) (limit + rows) =
      (layout.otherBlock? close limit).map fun block => (block.1 + rows, block.2.down rows) := by
  rw [otherBlock?_eq, otherBlock?_eq, relocated.otherHeader? after inside upto]
  cases opened : layout.otherHeader? close limit with
  | none => rfl
  | some header =>
      have bounds := otherHeader?_line inside opened
      rw [Option.map_some, Option.bind_some, Option.bind_some,
        relocated.closes header.1 header.2 limit (by omega) bounds.2 upto, Option.map_map,
        Option.map_map]
      rfl

theorem afterBlock (relocated : Relocated layout moved rows first stop)
    (after : first ≤ close.line) (inside : close.line < limit) (upto : limit ≤ stop) :
    moved.afterBlock (close.down rows) (limit + rows) =
      ((layout.afterBlock close limit).1.map (Stmt.down (UInt32.ofNat rows)),
        (layout.afterBlock close limit).2 + rows) := by
  unfold Layout.afterBlock
  rw [relocated.textAfter after (by omega)]
  dsimp only [Spot.down]
  rw [relocated.closes close.line (close.col + 1) limit after inside upto]
  split
  · rw [Nat.add_right_comm]
    rfl
  · have before : close.line < stop := by omega
    simp only [Stmt.onLine, relocated.clamped_down after before,
      relocated.number close.line after before]
    refine Prod.ext rfl ?_
    dsimp only
    split
    · cases layout.pairing.closeOf close.line (close.col + 1) limit with
      | none => rfl
      | some ends => exact Nat.add_right_comm _ _ _
    · exact Nat.add_right_comm _ _ _

theorem unclosed (relocated : Relocated layout moved rows first stop) (after : first ≤ line)
    (inside : line < limit) (upto : limit ≤ stop) (opener : Opener) :
    moved.unclosed (line + rows) (limit + rows) (opener.down (UInt32.ofNat rows)) =
      ((layout.unclosed line limit opener).1.down (UInt32.ofNat rows),
        (layout.unclosed line limit opener).2 + rows) := by
  have before : line < stop := by omega
  unfold Layout.unclosed
  rw [relocated.text line after before]
  refine Prod.ext ?_ ?_
  · simp only [Stmt.onLine, relocated.number line after before,
      relocated.clamped_down after before]
    cases opener with
    | refused fault => rfl
    | loop guard bound => rfl
    | branch test => rfl
  · dsimp only
    split
    · rfl
    · exact Nat.add_right_comm _ _ _

/-- The statement of an opener is moved down if its blocks are. -/
theorem captured (relocated : Relocated layout moved rows first stop) (after : first ≤ line)
    (upto : limit ≤ stop) (opener : Opener) (found : layout.blockEnd? line limit = some close)
    (blocks : ∀ range ∈ layout.ranges line limit close opener,
      moved.block (range.1 + rows) (range.2 + rows) =
        (layout.block range.1 range.2).map (Stmt.down (UInt32.ofNat rows))) :
    moved.captured (line + rows) (limit + rows) (close.down rows)
        (opener.down (UInt32.ofNat rows)) =
      ((layout.captured line limit close opener).1.down (UInt32.ofNat rows),
        (layout.captured line limit close opener).2.down rows) := by
  have inside := blockEnd?_line found
  have number := relocated.number line after (by omega)
  cases opener with
  | refused fault =>
      simp only [Opener.down, Layout.captured, Stmt.onLine, number]
      rfl
  | loop guard bound =>
      have body := blocks _ List.mem_cons_self
      dsimp only at body
      rw [Nat.add_right_comm] at body
      simp only [Opener.down, Layout.captured, Stmt.down, Stmt.allDown_eq_map, number]
      rw [← body]
      rfl
  | branch test =>
      have block := blocks _ List.mem_cons_self
      dsimp only at block
      rw [Nat.add_right_comm] at block
      have others := relocated.otherBlock? (show first ≤ close.line by omega) inside.2 upto
      cases found : layout.otherBlock? close limit with
      | none =>
          rw [found] at others
          simp only [Opener.down, Layout.captured, others, found, Option.map_none, Stmt.down,
            Stmt.allDown_eq_map, number]
          rw [← block]
          rfl
      | some second =>
          obtain ⟨header, ends⟩ := second
          have other := blocks (header + 1, ends.line) (by simp [ranges, found])
          dsimp only at other
          rw [Nat.add_right_comm] at other
          rw [found] at others
          simp only [Opener.down, Layout.captured, others, found, Option.map_some, Stmt.down,
            Stmt.allDown_eq_map, number]
          rw [← block, ← other]
          rfl

theorem form (relocated : Relocated layout moved rows first stop) (after : first ≤ line)
    (before : line < stop) :
    Form.ofLine (line + rows) (moved.text (line + rows)) =
      (Form.ofLine line (layout.text line)).down (UInt32.ofNat rows) := by
  rw [relocated.text line after before, Form.ofLine_down (relocated.number line after before)]

/-- What a line adds is moved down if its blocks are. -/
theorem readLine (relocated : Relocated layout moved rows first stop) (after : first ≤ line)
    (inside : line < limit) (upto : limit ≤ stop)
    (blocks : ∀ opener close, layout.blockEnd? line limit = some close →
      ∀ range ∈ layout.ranges line limit close opener,
        moved.block (range.1 + rows) (range.2 + rows) =
          (layout.block range.1 range.2).map (Stmt.down (UInt32.ofNat rows))) :
    moved.readLine (line + rows) (limit + rows) =
      ((layout.readLine line limit).1.map (Stmt.down (UInt32.ofNat rows)),
        (layout.readLine line limit).2 + rows) := by
  have before : line < stop := by omega
  have form' := relocated.form after before
  cases form : Form.ofLine line (layout.text line) with
  | action action =>
      rw [form] at form'
      rw [readLine_action form, readLine_action form', Nat.add_right_comm]
      simp only [Stmt.onLine, relocated.number line after before]
      rfl
  | opener opener =>
      rw [form] at form'
      have ends := relocated.blockEnd? after inside upto
      cases found : layout.blockEnd? line limit with
      | none =>
          rw [found] at ends
          rw [readLine_unclosed form found, readLine_unclosed form' ends,
            relocated.unclosed after inside upto]
          rfl
      | some close =>
          rw [found] at ends
          have last := captured_line opener found
          rw [readLine_captured form found, readLine_captured form' ends,
            relocated.captured after upto opener found (blocks opener close found),
            relocated.afterBlock (by omega) last.2 upto]
          cases (layout.afterBlock (layout.captured line limit close opener).2 limit).1 with
          | none => rfl
          | some extra => rfl

/-- The statements of a range are moved down with its lines. -/
theorem block (relocated : Relocated layout moved rows first stop) (after : first ≤ line)
    (upto : limit ≤ stop) :
    moved.block (line + rows) (limit + rows) =
      (layout.block line limit).map (Stmt.down (UInt32.ofNat rows)) := by
  induction left : limit - line using Nat.strongRecOn generalizing line limit with
  | ind n ih =>
      rcases Nat.lt_or_ge line limit with inside | past
      · have progress := layout.lt_readLine_next inside
        have read := relocated.readLine after inside upto (by
          intro opener close found range owned
          have bounds := ranges_bounds found owned
          exact ih (range.2 - range.1) (by omega) (by omega) (by omega) rfl)
        have later := ih (limit - (layout.readLine line limit).2) (by omega) (by omega) upto rfl
        rw [block_eq inside, block_eq (Nat.add_lt_add_right inside rows), read, List.map_append,
          ← later]
      · rw [block_of_le past, block_of_le (Nat.add_le_add_right past rows), List.map_nil]

end Relocated

end Layout

end LineScript
