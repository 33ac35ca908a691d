import LineScript.Program
import LineScript.Proofs.FormFault
import LineScript.Proofs.Waiting
import LineScript.Proofs.Reading

/-!
# Capturing balanced sources

The braces of a source are checked as one sequence, and its blocks are captured line by line. The
two do not agree on every source. A block is captured only if its last brace stands on a line of
its own range: not on the line that opens it, where it ends nothing, and not on the line that ends
the block around it, which no longer belongs to the range.

These are the only ways in which a balanced source fails to be captured. `capturesCleanly_iff`
says so: a balanced source is captured without a fault of its braces exactly if its blocks are
`Apart`. In a balanced source the brace that ends a block always exists, and reading keeps an
invariant, `Source.EndsAt`, by which that brace never lies behind the range.
-/

namespace LineScript

/-- Whether a statement is refused because its block does not end. -/
def Stmt.unbalanced : Stmt → Bool
  | .action _ (.invalid fault) => fault.code = .braces
  | _ => false

/-- Whether an opener has a known form. The block of any other opener is skipped. -/
def Opener.known : Opener → Bool
  | .refused _ => false
  | _ => true

theorem leftOpen_drop_le (text : Line) (count : Nat) :
    leftOpen (text.drop count) ≤ leftOpen text := by
  induction text generalizing count with
  | nil => simp
  | cons c rest ih =>
      have longer : leftOpen rest ≤ leftOpen (c :: rest) := by
        rw [leftOpen, leftOpen, unmatched_cons]
        cases Brace.ofChar? c with
        | none => exact Nat.le_refl _
        | some brace =>
            cases brace with
            | closing => exact Nat.le_refl _
            | opening =>
                dsimp only
                split
                · exact Nat.le_succ _
                · exact Nat.le_refl _
      cases count with
      | zero => exact Nat.le_refl _
      | succ count => exact Nat.le_trans (ih count) longer

namespace Source

variable {source : Source} {line limit fromCol : Nat} {close : Spot}

/-- A range of lines ends with the source or with a closing brace that waits for it. -/
def EndsAt (source : Source) (line limit : Nat) : Prop :=
  limit = source.size ∨ ∃ close ∈ source.waiting line, close.line = limit

theorem EndsAt.le_size (ends : source.EndsAt line limit) : limit ≤ source.size := by
  rcases ends with rfl | ⟨close, waits, rfl⟩
  · exact Nat.le_refl _
  · exact Nat.le_of_lt (le_line_of_mem_waiting waits).2

/-- The end of a range stays its end while the lines of the range are read. -/
theorem EndsAt.later (ends : source.EndsAt line limit) {later : Nat} (le : line ≤ later)
    (inside : later ≤ limit) : source.EndsAt later limit := by
  rcases ends with whole | ⟨close, waits, rfl⟩
  · exact .inl whole
  · exact .inr ⟨close, mem_waiting_of_le waits le inside, rfl⟩

/-- The brace that ends a block is the end of the range of its lines. -/
theorem endsAt_closeOf (found : source.pairing.closeOf line fromCol limit = some close) :
    source.EndsAt (line + 1) close.line :=
  .inr ⟨close, mem_waiting_of_closeOf found, rfl⟩

theorem leftOpen_of_closeOf (found : source.pairing.closeOf line fromCol limit = some close) :
    leftOpen ((source.line line).drop fromCol) ≠ 0 := by
  rw [closeOf_pairing] at found
  intro closed
  rw [if_pos closed] at found
  cases found

/-- A range of lines only hides the braces behind it. -/
theorem closeOf_eq_filter (le : limit ≤ source.size) :
    source.pairing.closeOf line fromCol limit =
      (source.pairing.closeOf line fromCol source.size).filter fun close => close.line < limit := by
  rw [closeOf_pairing, closeOf_pairing]
  split
  · rfl
  · rw [Option.filter_filter]
    congr 1
    funext close
    grind

/-- In a balanced source every opening brace has a partner. -/
theorem partner_isSome (balanced : (Layout.ofSource source).braceFault? = none) {brace : Opening}
    (mem : brace ∈ source.pairing.openingsOf line) : brace.partner.isSome := by
  change source.pairing.fault? source.stop = none at balanced
  rw [Pairing.fault?] at balanced
  split at balanced
  · cases balanced
  · split at balanced
    · cases balanced
    · next paired =>
      rw [Pairing.openingsOf] at mem
      cases found : source.pairing.openings[line]? with
      | none => simp [found] at mem
      | some openings =>
          rw [found, Option.getD_some] at mem
          have inside : openings ∈ source.pairing.openings := Array.mem_of_getElem? found
          rw [Bool.not_eq_true, Array.any_eq_false'] at paired
          have none_open := List.any_eq_false.mp (Bool.not_eq_true _ ▸ paired openings inside)
          exact Option.isSome_iff_ne_none.mpr (by simpa using none_open brace mem)

/-- Every block that a balanced source opens is closed. -/
theorem exists_closeOf (balanced : (Layout.ofSource source).braceFault? = none)
    (opened : leftOpen ((source.line line).drop fromCol) ≠ 0) :
    ∃ close, source.pairing.closeOf line fromCol source.size = some close := by
  have first := pairText_find line fromCol ((source.line line).drop fromCol)
    (waiting_elsewhere source line)
  rw [if_neg opened] at first
  obtain ⟨brace, found, partner⟩ := Option.map_eq_some_iff.mp first
  have mem : brace ∈ source.pairing.openingsOf line := by
    have mem := List.mem_of_find?_eq_some found
    have rest := filter_pairText line (source.line line) (source.waiting (line + 1))
      (Nat.zero_le fromCol)
    rw [Nat.sub_zero] at rest
    rw [← rest] at mem
    rw [openingsOf_pairing]
    exact (List.mem_filter.mp mem).1
  obtain ⟨close, last⟩ := Option.isSome_iff_exists.mp (partner_isSome balanced mem)
  rw [last] at partner
  have before := (le_line_of_mem_waiting (List.mem_of_getElem? partner.symm)).2
  refine ⟨close, ?_⟩
  rw [closeOf_pairing, if_neg opened, ← partner, Option.filter_eq_some_iff]
  exact ⟨rfl, decide_eq_true before⟩

/-- The brace that ends a block never lies behind the range of the block's opener. -/
theorem closeOf_line_le (ends : source.EndsAt line limit) (inside : line < limit)
    (found : source.pairing.closeOf line fromCol source.size = some close) :
    close.line ≤ limit := by
  have opened := leftOpen_of_closeOf found
  rw [closeOf_pairing, if_neg opened, Option.filter_eq_some_iff] at found
  rcases ends with rfl | ⟨stop, waits, rfl⟩
  · exact Nat.le_of_lt (by simpa using found.2)
  · obtain ⟨own, -, here, stack⟩ :=
      pairText_waiting line 0 (source.line line) (source.waiting (line + 1))
    rw [waiting_eq, stack, List.mem_append] at waits
    rcases waits with mine | behind
    · have := here stop mine
      omega
    · obtain ⟨index, place⟩ := List.mem_iff_getElem?.mp behind
      rw [List.getElem?_drop] at place
      -- The line takes `close` and leaves `stop`, so `stop` lies deeper in the stack.
      have fewer := leftOpen_drop_le (source.line line) fromCol
      obtain ⟨near_lt, near⟩ := List.getElem?_eq_some_iff.mp found.1
      obtain ⟨far_lt, far⟩ := List.getElem?_eq_some_iff.mp place
      rw [← near, ← far]
      exact List.pairwise_iff_getElem.mp (waiting_sorted source (line + 1)) _ _ near_lt far_lt
        (by omega)

/-- A block ends inside its range, unless it ends on the line where it is opened or on the line
that ends the range. -/
theorem closeOf_eq_none_iff (balanced : (Layout.ofSource source).braceFault? = none)
    (ends : source.EndsAt line limit) (inside : line < limit) :
    source.pairing.closeOf line fromCol limit = none ↔
      leftOpen ((source.line line).drop fromCol) = 0 ∨
        ∃ close, source.pairing.closeOf line fromCol source.size = some close ∧
          close.line = limit := by
  rw [closeOf_eq_filter ends.le_size]
  by_cases opened : leftOpen ((source.line line).drop fromCol) = 0
  · cases found : source.pairing.closeOf line fromCol source.size with
    | none => simp [opened]
    | some close => exact (leftOpen_of_closeOf found opened).elim
  · obtain ⟨close, found⟩ := exists_closeOf balanced opened
    have le := closeOf_line_le ends inside found
    simp [found, opened]
    omega

end Source

namespace Layout

section

variable {layout : Layout} {line limit : Nat}

/-- The other block of the choice on a line is opened, but left out because it does not end. -/
def DropsOther (layout : Layout) (line limit : Nat) : Prop :=
  ∃ test close header, Form.ofLine line (layout.text line) = .opener (.branch test) ∧
    layout.blockEnd? line limit = some close ∧ layout.otherHeader? close limit = some header ∧
    layout.otherBlock? close limit = none

/-- A statement that is refused for its braces is an opener of a known form whose block does not
end. The fault is reported at the last character of the line. -/
theorem unclosed_of_unbalanced {stmt : Stmt} (mem : stmt ∈ (layout.readLine line limit).1)
    (refused : stmt.unbalanced) :
    ∃ opener, Form.ofLine line (layout.text line) = .opener opener ∧ opener.known ∧
      layout.blockEnd? line limit = none ∧
      stmt = .onLine line
        (.invalid ⟨.missingClose, .clamped line ((layout.text line).length - 1)⟩) := by
  have lexical := Form.ofLine_code_ne line (layout.text line)
  cases form : Form.ofLine line (layout.text line) with
  | action action =>
      rw [form] at lexical
      rw [readLine_action form, List.mem_singleton] at mem
      rw [mem] at refused
      cases action with
      | invalid fault => exact (lexical fault rfl (of_decide_eq_true refused)).elim
      | _ => cases refused
  | opener opener =>
      rw [form] at lexical
      cases found : layout.blockEnd? line limit with
      | none =>
          rw [readLine_unclosed form found, List.mem_singleton] at mem
          rw [mem] at refused
          cases opener with
          | refused fault => exact (lexical fault rfl (of_decide_eq_true refused)).elim
          | _ => exact ⟨_, rfl, rfl, rfl, mem⟩
      | some close =>
          exfalso
          rw [readLine_captured form found] at mem
          rcases List.mem_cons.mp mem with rfl | behind
          · cases opener with
            | refused fault => exact lexical fault rfl (of_decide_eq_true refused)
            | loop guard bound => cases refused
            | branch test =>
                dsimp only [captured] at refused
                split at refused
                · cases refused
                · cases refused
          · rw [Option.mem_toList] at behind
            obtain ⟨text, pos, rfl⟩ := afterBlock_extra behind
            cases refused

/-- A line adds a statement that is refused for its braces exactly if it is an opener of a known
form whose block does not end. -/
theorem unbalanced_readLine :
    (∃ stmt ∈ (layout.readLine line limit).1, stmt.unbalanced) ↔
      ∃ opener, Form.ofLine line (layout.text line) = .opener opener ∧ opener.known ∧
        layout.blockEnd? line limit = none := by
  constructor
  · rintro ⟨stmt, mem, refused⟩
    obtain ⟨opener, form, known, missing, -⟩ := unclosed_of_unbalanced mem refused
    exact ⟨opener, form, known, missing⟩
  · rintro ⟨opener, form, known, missing⟩
    rw [readLine_unclosed form missing]
    refine ⟨_, List.mem_singleton.mpr rfl, ?_⟩
    cases opener with
    | refused fault => cases known
    | _ => rfl

end

end Layout

namespace Source

variable {source : Source} {rule : EntryRule} {line limit : Nat}

/-- The range of lines of every block that is read ends where it may. -/
theorem endsAt_reads {first stop : Nat}
    (reads : (Layout.ofSource source).Reads line limit first stop)
    (ends : source.EndsAt first stop) : source.EndsAt line limit := by
  induction reads with
  | here => exact ends
  | next inside _ ih =>
      -- The end of the range is still behind the next line, and so still on the stack.
      exact ih (ends.later (Nat.le_of_lt (Layout.lt_readLine_next inside))
        (Layout.readLine_next_le inside))
  | @block first stop opener close range form found owned _ ih =>
      refine ih ?_
      have own : source.EndsAt (first + 1) close.line :=
        endsAt_closeOf (Layout.closeOf_of_blockEnd? found)
      cases opener with
      | refused fault => cases owned
      | loop guard bound =>
          cases List.mem_singleton.mp owned
          exact own
      | branch test =>
          rcases List.mem_cons.mp owned with rfl | owned
          · exact own
          · rw [Option.mem_toList] at owned
            obtain ⟨⟨otherLine, otherStop⟩, other, rfl⟩ := Option.map_eq_some_iff.mp owned
            rw [Layout.otherBlock?_eq] at other
            obtain ⟨header, -, other⟩ := Option.bind_eq_some_iff.mp other
            obtain ⟨otherClose, found, same⟩ := Option.map_eq_some_iff.mp other
            cases same
            exact endsAt_closeOf found

theorem endsAt_region {region : Region}
    (h : (Layout.ofSource source).region rule = .ok region) :
    source.EndsAt region.first region.stop := by
  unfold Layout.region at h
  split at h
  · cases rule with
    | wholeSource =>
        cases h
        exact .inl rfl
    | mainRequired => cases h
  · split at h
    · next close found =>
      cases h
      exact endsAt_closeOf found
    · cases h

/-- What stands on a line from a column on opens a block that ends neither on the same line nor
on the line `limit`. -/
def EndsApart (source : Source) (line fromCol limit : Nat) : Prop :=
  leftOpen ((source.line line).drop fromCol) ≠ 0 ∧
    ∀ close, source.pairing.closeOf line fromCol source.size = some close → close.line ≠ limit

theorem closeOf_ne_none_iff {fromCol : Nat}
    (balanced : (Layout.ofSource source).braceFault? = none)
    (ends : source.EndsAt line limit) (inside : line < limit) :
    source.pairing.closeOf line fromCol limit ≠ none ↔ source.EndsApart line fromCol limit := by
  rw [ne_eq, closeOf_eq_none_iff balanced ends inside, EndsApart]
  simp only [not_or, not_exists, not_and, ne_eq]

/-- Capturing a source comes to none of the places where it gives up: the block of `main` ends,
no statement of the program is refused for its braces, and no other block is left out. -/
structure CapturesCleanly (source : Source) (rule : EntryRule) : Prop where
  main : ∀ fault, (Layout.ofSource source).region rule = .error fault → fault.code ≠ .mainOpen
  tree : ∀ program, Program.ofSource rule source = .ok program →
    ∀ row ∈ Stmt.listing program.body, ¬ row.stmt.unbalanced
  other : ∀ region, (Layout.ofSource source).region rule = .ok region →
    ∀ line limit, (Layout.ofSource source).Reads line limit region.first region.stop →
      ¬ (Layout.ofSource source).DropsOther line limit

/-- Every block that capturing a source comes to ends on a line of its own: neither on the line
that opens it nor on the one that ends the block around it. -/
structure Apart (source : Source) (rule : EntryRule) : Prop where
  main : ∀ line col, source.mainHeader? = some (line, col) →
    leftOpen ((source.line line).drop col) ≠ 0
  opener : ∀ region, (Layout.ofSource source).region rule = .ok region →
    ∀ line limit, (Layout.ofSource source).Reads line limit region.first region.stop →
      ∀ opener, Form.ofLine line (source.line line) = .opener opener → opener.known →
        0 < depthChange (source.line line) ∧ source.EndsApart line 0 limit
  other : ∀ region, (Layout.ofSource source).region rule = .ok region →
    ∀ line limit, (Layout.ofSource source).Reads line limit region.first region.stop →
      ∀ test close header, Form.ofLine line (source.line line) = .opener (.branch test) →
        (Layout.ofSource source).blockEnd? line limit = some close →
        (Layout.ofSource source).otherHeader? close limit = some header →
        source.EndsApart header.1 header.2 limit

theorem region_of_closeOf_eq_none {col : Nat} (header : source.mainHeader? = some (line, col))
    (missing : source.pairing.closeOf line col source.size = none) :
    (Layout.ofSource source).region rule = .error ⟨.mainOpen, .clamped line col⟩ := by
  simp only [Layout.region, Layout.ofSource, header, missing]

theorem closeOf_eq_none_of_region {fault : Fault}
    (refused : (Layout.ofSource source).region rule = .error fault)
    (code : fault.code = .mainOpen) :
    ∃ line col, source.mainHeader? = some (line, col) ∧
      source.pairing.closeOf line col source.size = none := by
  unfold Layout.region at refused
  split at refused
  · cases rule with
    | wholeSource => cases refused
    | mainRequired =>
        cases refused
        cases code
  · next line col header =>
    split at refused
    · cases refused
    · next missing => exact ⟨line, col, header, missing⟩

/-- In a balanced source the block of `main` ends unless its own line closes it. -/
theorem mainOpen_iff (balanced : (Layout.ofSource source).braceFault? = none) :
    (∀ fault, (Layout.ofSource source).region rule = .error fault → fault.code ≠ .mainOpen) ↔
      ∀ line col, source.mainHeader? = some (line, col) →
        leftOpen ((source.line line).drop col) ≠ 0 := by
  constructor
  · intro clean line col header closed
    cases ends : source.pairing.closeOf line col source.size with
    | none => exact clean _ (region_of_closeOf_eq_none header ends) rfl
    | some close => exact leftOpen_of_closeOf ends closed
  · intro opened fault refused code
    obtain ⟨line, col, header, missing⟩ := closeOf_eq_none_of_region refused code
    obtain ⟨close, ends⟩ := exists_closeOf balanced (opened line col header)
    rw [missing] at ends
    cases ends

/-- In a balanced source the block of an opener ends inside its range exactly if it ends apart. -/
theorem blockEnd?_ne_none_iff (balanced : (Layout.ofSource source).braceFault? = none)
    (ends : source.EndsAt line limit) (inside : line < limit) :
    (Layout.ofSource source).blockEnd? line limit ≠ none ↔
      0 < depthChange (source.line line) ∧ source.EndsApart line 0 limit := by
  rw [← closeOf_ne_none_iff balanced ends inside, Layout.blockEnd?]
  change (if 0 < depthChange (source.line line) then source.pairing.closeOf line 0 limit
    else none) ≠ none ↔ _
  split
  · next deeper => simp [deeper]
  · next level => simp [level]

/-- The statements of a balanced range of lines are refused for their braces only on lines where a
known opener does not end apart. -/
theorem unbalanced_block_iff (balanced : (Layout.ofSource source).braceFault? = none)
    {first stop : Nat} (ends : source.EndsAt first stop) :
    (∀ row ∈ Stmt.listing ((Layout.ofSource source).block first stop), ¬ row.stmt.unbalanced) ↔
      ∀ line limit, (Layout.ofSource source).Reads line limit first stop →
        ∀ opener, Form.ofLine line (source.line line) = .opener opener → opener.known →
          0 < depthChange (source.line line) ∧ source.EndsApart line 0 limit := by
  constructor
  · intro clean line limit reads opener form known
    rw [← blockEnd?_ne_none_iff balanced (endsAt_reads reads ends) reads.lt.1]
    intro missing
    obtain ⟨stmt, mem, refused⟩ := Layout.unbalanced_readLine.mpr ⟨opener, form, known, missing⟩
    obtain ⟨row, listed, rfl⟩ := Stmt.mem_listing.mpr
      (Layout.within_block.mpr ⟨line, limit, reads, mem⟩)
    exact clean row listed refused
  · intro apart row listed refused
    obtain ⟨line, limit, reads, mem⟩ := Layout.within_block.mp
      (Stmt.mem_listing.mp ⟨row, listed, rfl⟩)
    obtain ⟨opener, form, known, missing⟩ :=
      Layout.unbalanced_readLine.mp ⟨row.stmt, mem, refused⟩
    have closed := apart line limit reads opener form known
    rw [← blockEnd?_ne_none_iff balanced (endsAt_reads reads ends) reads.lt.1] at closed
    exact closed missing

/-- In a balanced source the other block of a choice is left out exactly if it does not end
apart. -/
theorem dropsOther_iff (balanced : (Layout.ofSource source).braceFault? = none)
    (ends : source.EndsAt line limit) :
    ¬ (Layout.ofSource source).DropsOther line limit ↔
      ∀ test close header, Form.ofLine line (source.line line) = .opener (.branch test) →
        (Layout.ofSource source).blockEnd? line limit = some close →
        (Layout.ofSource source).otherHeader? close limit = some header →
        source.EndsApart header.1 header.2 limit := by
  have left_out {close : Spot} {header : Nat × Nat}
      (found : (Layout.ofSource source).blockEnd? line limit = some close)
      (opened : (Layout.ofSource source).otherHeader? close limit = some header) :
      (Layout.ofSource source).otherBlock? close limit ≠ none ↔
        source.EndsApart header.1 header.2 limit := by
    have first := Layout.blockEnd?_line found
    have second := Layout.otherHeader?_line first.2 opened
    rw [← closeOf_ne_none_iff balanced (ends.later (by omega) (Nat.le_of_lt second.2)) second.2,
      Layout.otherBlock?_eq, opened, Option.bind_some, ne_eq, Option.map_eq_none_iff]
    rfl
  constructor
  · intro kept test close header form found opened
    rw [← left_out found opened]
    intro missing
    exact kept ⟨test, close, header, form, found, opened, missing⟩
  · rintro apart ⟨test, close, header, form, found, opened, missing⟩
    exact (left_out found opened).mpr (apart test close header form found opened) missing

/-- A balanced source is captured cleanly exactly if its blocks are apart. -/
theorem capturesCleanly_iff (source : Source) (rule : EntryRule)
    (balanced : (Layout.ofSource source).braceFault? = none) :
    source.CapturesCleanly rule ↔ source.Apart rule := by
  have program {region : Region} (found : (Layout.ofSource source).region rule = .ok region) :
      Program.ofSource rule source =
        .ok ⟨region, (Layout.ofSource source).block region.first region.stop⟩ := by
    simp [Program.ofSource, balanced, found]
  constructor
  · intro clean
    refine ⟨(mainOpen_iff balanced).mp clean.main, ?_, ?_⟩
    · intro region found
      exact (unbalanced_block_iff balanced (endsAt_region found)).mp (clean.tree _ (program found))
    · intro region found line limit reads
      have ends := endsAt_reads reads (endsAt_region found)
      exact (dropsOther_iff balanced ends).mp (clean.other region found line limit reads)
  · intro apart
    refine ⟨(mainOpen_iff balanced).mpr apart.main, ?_, ?_⟩
    · intro read same
      cases found : (Layout.ofSource source).region rule with
      | error fault => simp [Program.ofSource, balanced, found] at same
      | ok region =>
          rw [program found] at same
          cases same
          exact (unbalanced_block_iff balanced (endsAt_region found)).mpr
            (apart.opener region found)
    · intro region found line limit reads
      have ends := endsAt_reads reads (endsAt_region found)
      exact (dropsOther_iff balanced ends).mpr (apart.other region found line limit reads)

/-- A source whose last two blocks end on one line. -/
def sharedEnd : Source :=
  ofText "while i < 3 \x7b\nif x == 1 \x7b\n\x7d \x7d"

theorem capturesCleanly_iff_sharedEnd :
    (Layout.ofSource sharedEnd).braceFault? = none ∧
      (sharedEnd.CapturesCleanly .wholeSource ↔ sharedEnd.Apart .wholeSource) := by
  have balanced : (Layout.ofSource sharedEnd).braceFault? = none := by decide +kernel
  exact ⟨balanced, capturesCleanly_iff sharedEnd .wholeSource balanced⟩

/-- A balanced source need not be captured cleanly: if two blocks end on one line, the inner one
is refused. -/
theorem not_capturesCleanly_of_balanced :
    ¬ ∀ (source : Source) (rule : EntryRule),
      (Layout.ofSource source).braceFault? = none → source.CapturesCleanly rule := by
  intro clean
  have tree := (clean sharedEnd .wholeSource (by decide +kernel)).tree
  have refused : (Program.ofSource .wholeSource sharedEnd).toOption.any (fun program =>
      (Stmt.listing program.body).any fun row => row.stmt.unbalanced) = true := by
    decide +kernel
  cases read : Program.ofSource .wholeSource sharedEnd with
  | error fault => simp [read, Except.toOption] at refused
  | ok program =>
      simp only [read, Except.toOption, Option.any_some, List.any_eq_true] at refused
      obtain ⟨row, listed, unbalanced⟩ := refused
      exact tree program read row listed unbalanced

end Source

end LineScript
