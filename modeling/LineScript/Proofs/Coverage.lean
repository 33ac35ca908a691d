import LineScript.Proofs.LineOrder
import LineScript.Proofs.TokenPlace
import LineScript.Proofs.Entry

/-!
# Code that is accounted for

No code of a program should be read past: each token should belong to a line on which a statement
starts, or delimit a block. For the text behind a closing brace this is so, because what stands
there is looked at. The text in front of the brace is not looked at, and code in it is dropped.

That is the only code which is dropped. If every statement of a program is valid, its code is
accounted for exactly if nothing but delimiters stands in front of the braces that end its blocks.
-/

namespace LineScript

theorem isDelimiter_of_opensOther {text : Line} (opens : opensOther text) {kind : TokenKind}
    (mem : kind ∈ (scanCode text).map Token.kind) :
    kind = .keyword .otherwise ∨ kind = .openBrace := by
  rw [of_decide_eq_true opens] at mem
  simpa using mem

namespace Layout

variable {layout : Layout} {first stop line limit index header : Nat} {close : Spot}

/-- The brace that ends a block of an opener is paired with one on the line that opens the block. -/
theorem exists_closeOf_part {opener : Opener} {own : Spot} {part : Nat × Spot}
    (found : layout.blockEnd? line limit = some own)
    (mem : part ∈ layout.parts line limit own opener) :
    ∃ fromCol, layout.pairing.closeOf part.1 fromCol limit = some part.2 := by
  have self := closeOf_of_blockEnd? found
  cases opener with
  | refused fault => cases mem
  | loop guard bound =>
      cases List.mem_singleton.mp mem
      exact ⟨0, self⟩
  | branch test =>
      rcases List.mem_cons.mp mem with rfl | mem
      · exact ⟨0, self⟩
      · rw [Option.mem_toList, otherBlock?_eq] at mem
        obtain ⟨place, -, ends⟩ := Option.bind_eq_some_iff.mp mem
        obtain ⟨_, closes, rfl⟩ := Option.map_eq_some_iff.mp ends
        exact ⟨place.2, closes⟩

/-- Behind the brace that ends a block of a valid opener stands no code, or the other block of a
choice is opened there. -/
theorem textAfter_part {opener : Opener} {own : Spot} {part : Nat × Spot}
    (ends : scanCode (layout.source.textAfter (layout.captured line limit own opener).2) = [])
    (mem : part ∈ layout.parts line limit own opener) :
    scanCode (layout.source.textAfter part.2) = [] ∨
      opensOther (layout.source.textAfter part.2) := by
  cases opener with
  | refused fault => cases mem
  | loop guard bound =>
      cases List.mem_singleton.mp mem
      exact .inl ends
  | branch test =>
      cases other : layout.otherBlock? own limit with
      | none =>
          simp only [captured, other] at ends
          simp only [parts, other, Option.toList_none, List.mem_singleton] at mem
          rw [mem]
          exact .inl ends
      | some block =>
          obtain ⟨header, stop⟩ := block
          simp only [captured, other] at ends
          simp only [parts, other, Option.toList_some, List.mem_cons, List.not_mem_nil,
            or_false] at mem
          rcases mem with rfl | rfl
          · rcases otherBlock?_opens other with ⟨-, here⟩ | ⟨-, none_here, -⟩
            · exact .inr here
            · exact .inl none_here
          · exact .inl ends

/-- A block that is opened behind the line of its statement is the other block of a choice. -/
theorem otherBlock?_of_part {opener : Opener} {own : Spot}
    (mem : (header, close) ∈ layout.parts line limit own opener) (after : line < header) :
    layout.otherBlock? own limit = some (header, close) ∧
      (line, own) ∈ layout.parts line limit own opener := by
  cases opener with
  | refused fault => cases mem
  | loop guard bound =>
      cases List.mem_singleton.mp mem
      exact (Nat.lt_irrefl _ after).elim
  | branch test =>
      rcases List.mem_cons.mp mem with same | mem
      · cases same
        exact (Nat.lt_irrefl _ after).elim
      · exact ⟨Option.mem_toList.mp mem, List.mem_cons_self⟩

end Layout

namespace Source

variable {source : Source} {first stop line header index : Nat} {close : Spot}

/-- No code but delimiters stands in front of the brace at a spot. -/
def ClearBefore (source : Source) (close : Spot) : Prop :=
  ∀ token ∈ scanCode (source.line close.line), token.col < close.col → token.IsDelimiter

/-- If the code in front of a closing brace and the code behind it delimit blocks, all code of its
line does. -/
theorem isDelimiter_of_clear (clear : source.ClearBefore close)
    (brace : (source.line close.line)[close.col]? = some '\x7d')
    (behind : scanCode (source.textAfter close) = [] ∨ opensOther (source.textAfter close))
    {token : Token} (mem : token ∈ scanCode (source.line close.line)) : token.IsDelimiter := by
  rcases Nat.lt_or_ge token.col close.col with front | after
  · exact clear token mem front
  rcases (cut_scan (source.line close.line)).code_behind (Nat.zero_le _) brace mem after with
    ⟨other, inFront, earlier, code⟩ | rfl | rest
  · exact (code (clear other inFront earlier)).elim
  · exact .inl rfl
  · have kind := List.mem_map_of_mem (f := Token.kind) rest
    rw [map_kind_code_scanOnto] at kind
    change token.kind ∈ (scanCode (source.textAfter close)).map Token.kind at kind
    rcases behind with none_behind | opens
    · rw [none_behind] at kind
      cases kind
    · rcases isDelimiter_of_opensOther opens kind with otherwise | opening
      · exact .inr (.inl otherwise)
      · exact .inr (.inr opening)

/-- All code of a line that delimits a valid block delimits it, if the code in front of the braces
that end the blocks does. -/
theorem isDelimiter_of_delimits
    (valid : ∀ stmt, Stmt.Within stmt ((Layout.ofSource source).block first stop) → stmt.valid)
    (clear : ∀ line header close,
      (Layout.ofSource source).Captures first stop line header close → source.ClearBefore close)
    (delimits : (Layout.ofSource source).Delimits first stop index) {token : Token}
    (mem : token ∈ scanCode (source.line index)) : token.IsDelimiter := by
  obtain ⟨line, header, close, ⟨limit, opener, own, reads, form, found, part⟩, at_index⟩ := delimits
  obtain ⟨-, ends, -⟩ := Layout.captured_of_valid (Layout.valid_readLine valid reads) form found
  have on_close {part : Nat × Spot}
      (inParts : part ∈ (Layout.ofSource source).parts line limit own opener)
      (mem : token ∈ scanCode (source.line part.2.line)) : token.IsDelimiter := by
    obtain ⟨fromCol, closes⟩ := Layout.exists_closeOf_part found inParts
    have brace := brace_of_mem_waiting (mem_waiting_of_closeOf closes)
    apply isDelimiter_of_clear _ brace (Layout.textAfter_part ends inParts) mem
    exact clear line part.1 part.2 ⟨limit, opener, own, reads, form, found, inParts⟩
  rcases at_index with rfl | ⟨rfl, after⟩
  · exact on_close part mem
  · -- The other block is opened on the line that ends the first one, or on a line of its own.
    obtain ⟨other, first_part⟩ := Layout.otherBlock?_of_part part after
    rcases Layout.otherBlock?_opens other with ⟨same, -⟩ | ⟨-, -, opens⟩
    · rw [same] at mem
      exact on_close first_part mem
    · rcases isDelimiter_of_opensOther opens (List.mem_map_of_mem mem) with otherwise | opening
      · exact .inr (.inl otherwise)
      · exact .inr (.inr opening)

end Source

namespace Program

/-- Every token of the code of a program stands on a line on which exactly one statement starts, or
it delimits a block. -/
def Accounts (program : Program) (source : Source) : Prop :=
  ∀ line, program.region.first ≤ line → line < program.region.stop →
    ∀ token ∈ scanCode (source.line line),
      (Stmt.startLines program.body).count line = 1 ∨
        token.IsDelimiter ∧
          (Layout.ofSource source).Delimits program.region.first program.region.stop line

/-- The code of a valid program is accounted for exactly if nothing but delimiters stands in front
of the braces that end its blocks. -/
theorem accounts_iff {rule : EntryRule} {source : Source} {program : Program}
    (read : Program.ofSource rule source = .ok program)
    (valid : ∀ row ∈ Stmt.listing program.body, row.stmt.valid)
    (small : source.size ≤ UInt32.size) :
    program.Accounts source ↔
      ∀ line header close,
        (Layout.ofSource source).Captures program.region.first program.region.stop line header
          close → source.ClearBefore close := by
  obtain ⟨-, region, body⟩ := ofSource_eq_ok read
  have inside := (Source.endsAt_region region).le_size
  have all_valid (stmt) (within : Stmt.Within stmt ((Layout.ofSource source).block
      program.region.first program.region.stop)) : stmt.valid := by
    rw [← body] at within
    obtain ⟨row, listed, rfl⟩ := Stmt.mem_listing.mpr within
    exact valid row listed
  have starts (index : Nat) : (Stmt.startLines program.body).count index = 1 ↔
      ∃ limit, (Layout.ofSource source).Reads index limit program.region.first
        program.region.stop := by
    rw [body]
    exact Layout.count_startLines all_valid (by omega)
  constructor
  · intro accounts line header close captures token mem front
    have ends : (Layout.ofSource source).Delimits program.region.first program.region.stop
        close.line := ⟨line, header, close, captures, .inl rfl⟩
    have bounds := ends.bounds
    rcases accounts close.line bounds.1 bounds.2 token mem with one | ⟨delimiter, -⟩
    · obtain ⟨limit, reads⟩ := (starts close.line).mp one
      exact (Layout.not_delimits_of_reads reads ends).elim
    · exact delimiter
  · intro clear line after before token mem
    rcases Layout.reads_or_delimits all_valid after before with reads | delimits
    · exact .inl ((starts line).mpr reads)
    · exact .inr ⟨Source.isDelimiter_of_delimits all_valid clear delimits mem, delimits⟩

/-- A loop whose last line holds a statement before its closing brace. -/
def sharedClose : Source :=
  .ofText "while i < 1 \x7b\nprint \"a\"; \x7d"

private theorem ofSource_sharedClose : ofSource .wholeSource sharedClose =
    .ok ⟨⟨none, 0, 2⟩, (Layout.ofSource sharedClose).block 0 2⟩ :=
  ofSource_of_region (by decide +kernel) (Source.region_wholeSource (by decide +kernel))

private theorem valid_sharedClose :
    ∀ row ∈ Stmt.listing ((Layout.ofSource sharedClose).block 0 2), row.stmt.valid := by
  decide +kernel

theorem accounts_iff_sharedClose :
    ∃ program, ofSource .wholeSource sharedClose = .ok program ∧
      (∀ row ∈ Stmt.listing program.body, row.stmt.valid) ∧ sharedClose.size ≤ UInt32.size ∧
      (program.Accounts sharedClose ↔
        ∀ line header close, (Layout.ofSource sharedClose).Captures program.region.first
          program.region.stop line header close → sharedClose.ClearBefore close) := by
  have small : sharedClose.size ≤ UInt32.size := by decide +kernel
  exact ⟨_, ofSource_sharedClose, valid_sharedClose, small,
    accounts_iff ofSource_sharedClose valid_sharedClose small⟩

/-- Not all code of a valid program is accounted for: a statement in front of a closing brace is
dropped. -/
theorem not_accounts_of_valid :
    ¬ ∀ (rule : EntryRule) (source : Source) (program : Program),
      ofSource rule source = .ok program →
      (∀ row ∈ Stmt.listing program.body, row.stmt.valid) → program.Accounts source := by
  intro accounts
  have all := accounts .wholeSource sharedClose _ ofSource_sharedClose valid_sharedClose 1
    (by decide) (by decide) ⟨.keyword .print, "print".toList, 0⟩ (by decide +kernel)
  rcases all with one | ⟨delimiter, -⟩
  · revert one
    decide +kernel
  · revert delimiter
    decide +kernel

end Program

end LineScript
