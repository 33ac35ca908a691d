import LineScript.Stmt.Form
import LineScript.Region

/-!
# Blocks

An opener owns the lines up to the closing brace of its block. The text behind that brace may
open the other block of a choice, alone or on the next line; any other code there is a fault.
Where a block ends is looked up in the pairing of the braces, so the shape of a block is known
before its lines are read: `closeOf`, `otherBlock` and `afterBlock` answer without reading a
block, and `readLines` reads each line once.

Reading never fails. An opener whose block does not end inside the lines being read becomes an
invalid statement.
-/

namespace LineScript

/-- Where a block ends: the text behind its closing brace. -/
def Source.textAfter (source : Source) (close : Spot) : Line :=
  (source.line close.line).drop (close.col + 1)

/-- Whether a text is the start of the other block of a choice. -/
def opensOther (text : Line) : Bool :=
  (scanCode text).map Token.kind = [.keyword .otherwise, .openBrace]

namespace Layout

/-- The text of a line. -/
def text (layout : Layout) (line : Nat) : Line :=
  layout.source.line line

/-- The end of the block that the line `line` opens, if it ends before line `limit`. -/
def blockEnd? (layout : Layout) (line limit : Nat) : Option Spot :=
  if 0 < depthChange (layout.text line) then layout.pairing.closeOf line 0 limit else none

/-- The other block of a choice whose first block ends at `close`: the line that opens it and
the brace that ends it. -/
def otherBlock? (layout : Layout) (close : Spot) (limit : Nat) : Option (Nat × Spot) :=
  let rest := layout.source.textAfter close
  if opensOther rest then
    (layout.pairing.closeOf close.line (close.col + 1) limit).map fun stop => (close.line, stop)
  else if (scanCode rest).isEmpty ∧ close.line + 1 < limit ∧
      opensOther (layout.text (close.line + 1)) then
    (layout.pairing.closeOf (close.line + 1) 0 limit).map fun stop => (close.line + 1, stop)
  else none

/-- What follows the last block of a statement, which ends at `close`: the next line to read,
after an invalid statement if there is code behind the brace. If that code opens a block of
its own, the block is skipped. -/
def afterBlock (layout : Layout) (close : Spot) (limit : Nat) : Option Stmt × Nat :=
  let rest := layout.source.textAfter close
  match scanCode rest with
  | [] => (none, close.line + 1)
  | first :: _ =>
    let fault : Fault :=
      ⟨.unknownForm (String.ofList (trim rest)), .clamped close.line (close.col + 1 + first.col)⟩
    let next :=
      if 0 < depthChange rest then
        ((layout.pairing.closeOf close.line (close.col + 1) limit).map fun stop =>
          stop.line + 1).getD limit
      else close.line + 1
    (some (.onLine close.line (.invalid fault)), next)

/-- The statement of an opener on line `line` whose block does not end before `limit`, and the
next line to read: the rest of the lines belong to the block if the line opens one. -/
def unclosed (layout : Layout) (line limit : Nat) (opener : Opener) : Stmt × Nat :=
  let text := layout.text line
  let fault : Fault :=
    match opener with
    | .refused fault => fault
    | _ => ⟨.missingClose, .clamped line (text.length - 1)⟩
  (.onLine line (.invalid fault), if 0 < depthChange text then limit else line + 1)

theorem blockEnd?_line {layout : Layout} {line limit : Nat} {close : Spot}
    (h : layout.blockEnd? line limit = some close) : line < close.line ∧ close.line < limit := by
  unfold blockEnd? at h
  split at h
  · exact Pairing.closeOf_line h
  · cases h

theorem otherBlock?_line {layout : Layout} {close : Spot} {limit line : Nat} {stop : Spot}
    (h : layout.otherBlock? close limit = some (line, stop)) :
    close.line ≤ line ∧ line < stop.line ∧ stop.line < limit := by
  unfold otherBlock? at h
  dsimp only at h
  split at h
  · obtain ⟨found, hfound, heq⟩ := Option.map_eq_some_iff.1 h
    cases heq
    have := Pairing.closeOf_line hfound
    omega
  · split at h
    · obtain ⟨found, hfound, heq⟩ := Option.map_eq_some_iff.1 h
      cases heq
      have := Pairing.closeOf_line hfound
      omega
    · cases h

theorem lt_afterBlock_next {layout : Layout} {close : Spot} {limit : Nat}
    (h : close.line < limit) : close.line < (layout.afterBlock close limit).2 := by
  unfold afterBlock
  dsimp only
  split
  · simp
  · dsimp only
    split
    · cases hc : layout.pairing.closeOf close.line (close.col + 1) limit with
      | none => simpa using h
      | some stop =>
        have := Pairing.closeOf_line hc
        simp only [Option.map_some, Option.getD_some]
        omega
    · simp

theorem lt_unclosed_next {layout : Layout} {line limit : Nat} (opener : Opener)
    (h : line < limit) : line < (layout.unclosed line limit opener).2 := by
  unfold unclosed
  dsimp only
  split <;> omega

/-- Reads the lines from `line` up to, but not including, `limit`. The statements `done`,
latest first, come before theirs. -/
def readLines (layout : Layout) (limit line : Nat) (done : List Stmt) : List Stmt :=
  if inside : line < limit then
    match Form.ofLine line (layout.text line) with
    | .action action => layout.readLines limit (line + 1) (.onLine line action :: done)
    | .opener opener =>
      match hend : layout.blockEnd? line limit with
      | none =>
        let lone := layout.unclosed line limit opener
        have := layout.lt_unclosed_next opener inside
        layout.readLines limit lone.2 (lone.1 :: done)
      | some close =>
        have hclose := blockEnd?_line hend
        have _ := layout.lt_afterBlock_next hclose.2
        match opener with
        | .refused fault =>
          let after := layout.afterBlock close limit
          layout.readLines limit after.2 (after.1.toList ++ .onLine line (.invalid fault) :: done)
        | .loop guard bound =>
          let after := layout.afterBlock close limit
          let body := layout.readLines close.line (line + 1) []
          layout.readLines limit after.2
            (after.1.toList ++ .loop (UInt32.ofNatClamp line) guard bound body :: done)
        | .branch test =>
          match hother : layout.otherBlock? close limit with
          | none =>
            let after := layout.afterBlock close limit
            let block := layout.readLines close.line (line + 1) []
            layout.readLines limit after.2
              (after.1.toList ++ .branch (UInt32.ofNatClamp line) test block :: done)
          | some (otherLine, stop) =>
            have hstop := otherBlock?_line hother
            have _ := layout.lt_afterBlock_next hstop.2.2
            let after := layout.afterBlock stop limit
            let block := layout.readLines close.line (line + 1) []
            let other := layout.readLines stop.line (otherLine + 1) []
            layout.readLines limit after.2
              (after.1.toList ++ .choice (UInt32.ofNatClamp line) test block other :: done)
  else done.reverse
termination_by limit - line

/-- The statements of the lines from `first` up to, but not including, `limit`. -/
def block (layout : Layout) (first limit : Nat) : List Stmt :=
  layout.readLines limit first []

end Layout

/-- The statements of a range of lines of a source, which need not be balanced. Lines past
its end are empty. -/
def Source.block (source : Source) (first limit : Nat) : List Stmt :=
  (Layout.ofSource source).block first limit

end LineScript
