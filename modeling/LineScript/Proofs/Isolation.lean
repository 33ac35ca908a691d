import LineScript.Proofs.Capture
import LineScript.Proofs.Entry
import LineScript.Proofs.Relocation

/-!
# What lies outside

The braces of a source are paired in one pass over the whole of it. Still the lines of a range can
be read without the others. Of the braces that wait before a line, those in front of a mark depend
on the text up to the mark alone: `Source.waitingBefore` computes them from that text, and the
braces behind the mark lie deeper in the stack. A block that ends inside a range ends in front of
the end of the range, so where it ends is settled by the lines of the range, `Source.relocated`.

For `main` the mark is the brace that ends it. Sources that agree from the header of `main` up to
this brace have the same program and the same runs, whatever their other lines are.
-/

namespace LineScript

theorem pairText_down (line col rows : Nat) (text : Line) :
    (pairText (line + rows) col text []).2 =
      ((pairText line col text []).2).map (Spot.down rows) :=
  pairText_move (· + rows) line col text

/-- A text that is moved down moves down what it puts on the stack. -/
theorem pairText_map_down (line col rows : Nat) (text : Line) (waiting : List Spot) :
    (pairText (line + rows) col text (waiting.map (Spot.down rows))).2 =
      ((pairText line col text waiting).2).map (Spot.down rows) :=
  pairText_map_move (· + rows) line col text waiting

namespace Source

variable {source moved : Source} {mark close : Spot} {line limit fromCol rows : Nat}

/-- The closing braces in front of `mark` that wait for a partner before line `line`. -/
def waitingBefore (source : Source) (mark : Spot) (line : Nat) : List Spot :=
  if line < mark.line then
    (pairText line 0 (source.line line) (source.waitingBefore mark (line + 1))).2
  else (pairText line 0 ((source.line line).take mark.col) []).2
termination_by mark.line - line

theorem waitingBefore_of_lt (lower : line < mark.line) :
    source.waitingBefore mark line =
      (pairText line 0 (source.line line) (source.waitingBefore mark (line + 1))).2 := by
  rw [waitingBefore, if_pos lower]

theorem waitingBefore_mark (source : Source) (mark : Spot) :
    source.waitingBefore mark mark.line =
      (pairText mark.line 0 ((source.line mark.line).take mark.col) []).2 := by
  rw [waitingBefore, if_neg (Nat.lt_irrefl _)]

/-- The closing braces in front of a mark wait on top of the others. -/
theorem waiting_eq_append (upto : line ≤ mark.line) :
    ∃ behind, source.waiting line = source.waitingBefore mark line ++ behind ∧
      ∀ spot ∈ behind, ¬ spot.Before mark := by
  induction left : mark.line - line generalizing line with
  | zero =>
      obtain rfl : line = mark.line := by omega
      let text := source.line mark.line
      have split : text = text.take mark.col ++ text.drop mark.col :=
        (List.take_append_drop mark.col text).symm
      refine ⟨(pairText mark.line (text.take mark.col).length (text.drop mark.col)
        (source.waiting (mark.line + 1))).2.drop (leftOpen (text.take mark.col)), ?_, ?_⟩
      · rw [waitingBefore_mark, waiting_eq]
        change (pairText mark.line 0 text _).2 = _
        rw [split, pairText_append, pairText_stack, Nat.zero_add, ← split]
      · intro spot mem
        rw [Spot.Before]
        rcases mem_pairText_waiting (List.mem_of_mem_drop mem) with behind | ⟨here, after, brace⟩
        · have := le_line_of_mem_waiting behind
          omega
        · -- If there is text behind the mark, that in front of it is as long as the mark says.
          obtain ⟨inside, -⟩ := List.getElem?_eq_some_iff.mp brace
          rw [List.length_drop] at inside
          rw [List.length_take] at after
          omega
  | succ n ih =>
      have lower : line < mark.line := by omega
      obtain ⟨behind, stack, outside⟩ := ih lower (by omega)
      let taken := leftOpen (source.line line) - (source.waitingBefore mark (line + 1)).length
      refine ⟨behind.drop taken, ?_, fun spot mem => outside spot (List.mem_of_mem_drop mem)⟩
      rw [waitingBefore_of_lt lower, waiting_eq, stack, pairText_stack,
        pairText_stack line 0 (source.line line) (source.waitingBefore mark (line + 1)),
        List.drop_append, List.append_assoc]

/-- Two sources with the same text from a line up to a mark have the same braces waiting before that
line, as far as they stand in front of the mark. -/
theorem waitingBefore_down (upto : line ≤ mark.line)
    (agree : ∀ index, line ≤ index → index < mark.line →
      moved.line (index + rows) = source.line index)
    (last : (moved.line (mark.line + rows)).take mark.col =
      (source.line mark.line).take mark.col) :
    moved.waitingBefore (mark.down rows) (line + rows) =
      (source.waitingBefore mark line).map (Spot.down rows) := by
  induction left : mark.line - line generalizing line with
  | zero =>
      obtain rfl : line = mark.line := by omega
      rw [waitingBefore_mark, ← pairText_down, ← last]
      exact moved.waitingBefore_mark (mark.down rows)
  | succ n ih =>
      have lower : line < mark.line := by omega
      have rest := ih lower (fun index after => agree index (by omega)) (by omega)
      have lower' : line + rows < (mark.down rows).line := Nat.add_lt_add_right lower rows
      rw [waitingBefore_of_lt lower, waitingBefore_of_lt lower', Nat.add_right_comm, rest,
        agree line (Nat.le_refl line) lower, pairText_map_down]

theorem waitingBefore_congr {other : Source} (upto : line ≤ mark.line)
    (agree : ∀ index, line ≤ index → index < mark.line → other.line index = source.line index)
    (last : (other.line mark.line).take mark.col = (source.line mark.line).take mark.col) :
    other.waitingBefore mark line = source.waitingBefore mark line := by
  have moved : other.waitingBefore (mark.down 0) (line + 0) =
      (source.waitingBefore mark line).map (Spot.down 0) :=
    waitingBefore_down upto agree last
  exact moved.trans (List.map_id'' (fun _ => rfl) _)

/-- Where a block ends that ends in front of a mark is settled by the text up to the mark. -/
theorem closeOf_before (after : line < mark.line) (upto : limit ≤ mark.line) :
    source.pairing.closeOf line fromCol limit =
      if leftOpen ((source.line line).drop fromCol) = 0 then none
      else
        (source.waitingBefore mark (line + 1))[
          leftOpen ((source.line line).drop fromCol) - 1]?.filter fun close =>
            close.line < limit := by
  obtain ⟨behind, stack, outside⟩ := source.waiting_eq_append (Nat.succ_le_of_lt after)
  rw [closeOf_pairing, stack]
  split
  · rfl
  · rw [List.getElem?_append]
    split
    · rfl
    · next deep =>
      rw [List.getElem?_eq_none (Nat.le_of_not_lt deep), Option.filter_none,
        Option.filter_eq_none_iff]
      intro spot found
      have := outside spot (List.mem_of_getElem? found)
      rw [Spot.Before] at this
      simp only [decide_eq_true_eq]
      omega

/-- Lines that stand in two sources are read alike in both. -/
theorem relocated {first stop : Nat}
    (agree : ∀ line, first ≤ line → line < stop → moved.line (line + rows) = source.line line)
    (number : ∀ line, first ≤ line → line < stop →
      UInt32.ofNatClamp (line + rows) = UInt32.ofNatClamp line + UInt32.ofNat rows) :
    (Layout.ofSource source).Relocated (Layout.ofSource moved) rows first stop := by
  refine ⟨agree, ?_, number⟩
  intro line fromCol limit after inside upto
  change moved.pairing.closeOf (line + rows) fromCol (limit + rows) =
    (source.pairing.closeOf line fromCol limit).map (Spot.down rows)
  let mark : Spot := ⟨stop, 0⟩
  have below : line < mark.line := Nat.lt_of_lt_of_le inside upto
  have stack : moved.waitingBefore (mark.down rows) (line + 1 + rows) =
      (source.waitingBefore mark (line + 1)).map (Spot.down rows) := by
    apply waitingBefore_down below
    · intro index later before
      exact agree index (by omega) before
    · rfl
  rw [closeOf_before below upto,
    closeOf_before (show line + rows < (mark.down rows).line from Nat.add_lt_add_right below rows)
      (Nat.add_le_add_right upto rows),
    agree line after (Nat.lt_of_lt_of_le inside upto), Nat.add_right_comm, stack, List.getElem?_map]
  split
  · rfl
  · cases (source.waitingBefore mark (line + 1))[
        leftOpen ((source.line line).drop fromCol) - 1]? with
    | none => rfl
    | some close =>
        have same : (close.down rows).line < limit + rows ↔ close.line < limit :=
          Nat.add_lt_add_iff_right
        simp only [Option.map_some, Option.filter_some, same]
        split
        · rfl
        · rfl

/-- The block of a range does not depend on the lines outside. -/
theorem block_congr {other : Source} {first stop : Nat}
    (agree : ∀ line, first ≤ line → line < stop → other.line line = source.line line) :
    (Layout.ofSource other).block first stop = (Layout.ofSource source).block first stop := by
  have stay {kept : Source}
      (same : ∀ line, first ≤ line → line < stop → kept.line line = source.line line) :
      (Layout.ofSource kept).block (first + 0) (stop + 0) =
        ((Layout.ofSource source).block first stop).map (Stmt.down (UInt32.ofNat 0)) := by
    refine (relocated same ?_).block (Nat.le_refl first) (Nat.le_refl stop)
    intro line _ _
    exact (UInt32.add_zero _).symm
  exact (stay agree).trans (stay fun _ _ _ => rfl).symm

/-! ## The lines of `main` -/

/-- Two sources agree on the lines of `main`, whose header is on line `header` with its brace in
column `col`: up to the brace that ends it or, if the header itself closes it, on the header. -/
def AgreesOnMain (source other : Source) (header col : Nat) : Prop :=
  match source.pairing.closeOf header col source.size with
  | some close =>
    (∀ line, header ≤ line → line < close.line → other.line line = source.line line) ∧
      (other.line close.line).take (close.col + 1) = (source.line close.line).take (close.col + 1)
  | none => other.line header = source.line header

/-- The block of a brace ends at the partner of the brace, unless that is on the same line. -/
theorem closeOf_of_partner {brace : Opening} (mem : brace ∈ source.pairing.openingsOf line)
    (partner : brace.partner = some close) (apart : close.line ≠ line) :
    source.pairing.closeOf line brace.col source.size = some close := by
  rw [closeOf_eq_bind]
  rw [openingsOf_pairing] at mem ⊢
  have here : brace ∈ (pairText line 0 (source.line line) (source.waiting (line + 1))).1.filter
      fun other => brace.col ≤ other.col :=
    List.mem_filter.mpr ⟨mem, decide_eq_true (Nat.le_refl brace.col)⟩
  rw [filter_pairText line _ _ (Nat.zero_le _), Nat.sub_zero] at here ⊢
  have later (rest : Line) :
      brace ∉ (pairText line (brace.col + 1) rest (source.waiting (line + 1))).1 := fun mem =>
    Nat.not_succ_le_self _ (le_col_of_mem_pairText mem)
  generalize (source.line line).drop brace.col = text at here ⊢
  -- The text from the column of the brace on begins with it, so it is the first candidate.
  cases text with
  | nil => cases here
  | cons c rest =>
      rw [pairText_cons] at here ⊢
      cases kind : Brace.ofChar? c with
      | none =>
          rw [kind] at here
          exact (later rest here).elim
      | some brace' =>
          rw [kind] at here
          cases brace' with
          | closing => exact (later rest here).elim
          | opening =>
              rcases List.mem_cons.mp here with same | mem
              · have leaves : Opening.leaves line brace = true := by
                  simpa [Opening.leaves, partner] using apart
                have waits : close ∈
                    (pairText line (brace.col + 1) rest (source.waiting (line + 1))).2 := by
                  rw [same] at partner
                  exact List.mem_of_head? partner
                simp only [meetBrace]
                rw [← same, List.find?_cons_of_pos leaves, Option.bind_some, partner,
                  Option.filter_eq_some_iff]
                rcases mem_pairText_waiting waits with behind | ⟨on_line, -⟩
                · have bounds := le_line_of_mem_waiting behind
                  refine ⟨rfl, ?_⟩
                  simp only [Bool.and_eq_true, decide_eq_true_eq]
                  omega
                · exact (apart on_line).elim
              · exact (later rest mem).elim

/-- Sources that agree up to the partner of the brace of `main` agree on its lines, unless the
partner stands on the header. -/
theorem agreesOnMain_of_partner {other : Source} {header : Nat} {brace : Opening}
    (mem : brace ∈ source.pairing.openingsOf header) (partner : brace.partner = some close)
    (apart : close.line ≠ header)
    (lines : ∀ line, header ≤ line → line < close.line → other.line line = source.line line)
    (last : (other.line close.line).take (close.col + 1) =
      (source.line close.line).take (close.col + 1)) :
    source.AgreesOnMain other header brace.col := by
  rw [AgreesOnMain, closeOf_of_partner mem partner apart]
  exact ⟨lines, last⟩

/-- A brace that ends a block ends it in every source with the same text up to the brace. -/
theorem closeOf_of_agree {other : Source}
    (found : source.pairing.closeOf line fromCol source.size = some close)
    (agree : ∀ index, line ≤ index → index < close.line → other.line index = source.line index)
    (last : (other.line close.line).take (close.col + 1) =
      (source.line close.line).take (close.col + 1)) :
    other.pairing.closeOf line fromCol other.size = some close := by
  -- The mark is put just behind the brace, which is then in front of it.
  let mark : Spot := ⟨close.line, close.col + 1⟩
  have below := (Pairing.closeOf_line found).1
  have stack : other.waitingBefore mark (line + 1) = source.waitingBefore mark (line + 1) := by
    apply waitingBefore_congr (show line + 1 ≤ mark.line from below)
    · intro index after before
      exact agree index (by omega) before
    · exact last
  obtain ⟨behind, waits, outside⟩ := source.waiting_eq_append (show line + 1 ≤ mark.line from below)
  obtain ⟨behind', waits', -⟩ := other.waiting_eq_append (show line + 1 ≤ mark.line from below)
  have opened := leftOpen_of_closeOf found
  rw [closeOf_pairing, if_neg opened, Option.filter_eq_some_iff, waits,
    List.getElem?_append] at found
  have inFront : (source.waitingBefore mark (line + 1))[
      leftOpen ((source.line line).drop fromCol) - 1]? = some close := by
    obtain ⟨place, -⟩ := found
    split at place
    · exact place
    · exact (outside close (List.mem_of_getElem? place) (.inr ⟨rfl, Nat.lt_succ_self _⟩)).elim
  have here : (other.waiting (line + 1))[leftOpen ((source.line line).drop fromCol) - 1]? =
      some close := by
    rw [waits', stack]
    obtain ⟨inside, place⟩ := List.getElem?_eq_some_iff.mp inFront
    rw [List.getElem?_append_left inside]
    exact inFront
  have within := (le_line_of_mem_waiting (List.mem_of_getElem? here)).2
  rw [closeOf_pairing, agree line (Nat.le_refl line) below, if_neg opened, here,
    Option.filter_eq_some_iff]
  exact ⟨rfl, decide_eq_true within⟩

/-- The header of `main` and the text up to the brace that ends it determine the program. -/
theorem ofSource_of_agree {other : Source} {rule : EntryRule} {header col col' : Nat}
    (balanced : (Layout.ofSource source).braceFault? = none)
    (balanced' : (Layout.ofSource other).braceFault? = none)
    (main : source.mainHeader? = some (header, col))
    (main' : other.mainHeader? = some (header, col'))
    (agree : source.AgreesOnMain other header col) :
    Program.ofSource rule other = Program.ofSource rule source := by
  have same_col (same : other.line header = source.line header) : col' = col := by
    have brace := (mainHeader?_eq_some_iff.mp main).2.1
    have brace' := (mainHeader?_eq_some_iff.mp main').2.1
    rw [headerBrace?, same] at brace'
    exact Option.some.inj (brace'.symm.trans brace)
  have region := @region_main source header col rule main
  have region' := @region_main other header col' rule main'
  unfold AgreesOnMain at agree
  cases found : source.pairing.closeOf header col source.size with
  | none =>
      -- The header closes what it opens, so its block has no end in either source.
      rw [found] at agree
      dsimp only at agree
      have closed : leftOpen ((source.line header).drop col) = 0 := by
        apply Classical.byContradiction
        intro opened
        obtain ⟨close, ends⟩ := exists_closeOf balanced opened
        rw [found] at ends
        cases ends
      have found' : other.pairing.closeOf header col other.size = none := by
        rw [closeOf_pairing, agree, if_pos closed]
      rw [found] at region
      rw [same_col agree, found'] at region'
      simp only [Program.ofSource, balanced, balanced', region, region']
  | some close =>
      rw [found] at agree
      obtain ⟨lines, last⟩ := agree
      have below := (Pairing.closeOf_line found).1
      have found' := closeOf_of_agree found lines last
      rw [found] at region
      rw [same_col (lines header (Nat.le_refl header) below), found'] at region'
      have body := block_congr fun line after before => lines line (Nat.le_of_succ_le after) before
      rw [Program.ofSource_of_region balanced region, Program.ofSource_of_region balanced' region',
        body]

end Source

/-- Code outside `main` never affects a run: two balanced texts with the header of `main` on the
same line that agree on the lines of `main` have the same outcome. -/
theorem run_eq_of_agreesOnMain (config : Config) (clock : Clock) (text other : String)
    (header col col' : Nat)
    (balanced : (Layout.ofSource (.ofText text)).braceFault? = none)
    (balanced' : (Layout.ofSource (.ofText other)).braceFault? = none)
    (main : (Source.ofText text).mainHeader? = some (header, col))
    (main' : (Source.ofText other).mainHeader? = some (header, col'))
    (agree : (Source.ofText text).AgreesOnMain (.ofText other) header col) :
    run config clock other = run config clock text := by
  rw [run, run, Source.run, Source.run,
    Source.ofSource_of_agree balanced balanced' main main' agree]

/-- A text with nothing but `main` on its lines. -/
def lonely : String :=
  "\nfunc main() \x7b\nprint \"a\";\n\x7d"

/-- The same `main` with a block around it, and with another `main` and a line of no form behind. -/
def surrounded : String :=
  "x = \x7b\nfunc main() \x7b\nprint \"a\";\n\x7d \x7d\nfunc main() \x7b\n\x7d\n?"

theorem run_eq_of_agreesOnMain_surrounded :
    (Layout.ofSource (.ofText lonely)).braceFault? = none ∧
      (Layout.ofSource (.ofText surrounded)).braceFault? = none ∧
      (Source.ofText lonely).mainHeader? = some (1, 12) ∧
      (Source.ofText surrounded).mainHeader? = some (1, 12) ∧
      (Source.ofText lonely).AgreesOnMain (.ofText surrounded) 1 12 ∧
      run .standard .still surrounded = run .standard .still lonely := by
  have balanced : (Layout.ofSource (.ofText lonely)).braceFault? = none := by decide +kernel
  have balanced' : (Layout.ofSource (.ofText surrounded)).braceFault? = none := by
    decide +kernel
  have main : (Source.ofText lonely).mainHeader? = some (1, 12) := by decide +kernel
  have main' : (Source.ofText surrounded).mainHeader? = some (1, 12) := by decide +kernel
  have agree : (Source.ofText lonely).AgreesOnMain (.ofText surrounded) 1 12 := by
    have ends : (Source.ofText lonely).pairing.closeOf 1 12 (Source.ofText lonely).size =
        some ⟨3, 0⟩ := by decide +kernel
    rw [Source.AgreesOnMain, ends]
    refine ⟨?_, by decide +kernel⟩
    intro line after before
    have inside : line = 1 ∨ line = 2 := by
      dsimp only at before
      omega
    rcases inside with rfl | rfl
    · decide +kernel
    · decide +kernel
  exact ⟨balanced, balanced', main, main', agree,
    run_eq_of_agreesOnMain .standard .still lonely surrounded 1 12 12 balanced balanced' main
      main' agree⟩

/-- The partner of the brace of `main` need not end `main`. If the header closes the brace itself,
the next brace that it leaves open counts, and the lines up to its partner are executed. -/
theorem not_run_eq_of_partner :
    ¬ ∀ (config : Config) (clock : Clock) (text other : String) (header col col' : Nat)
        (brace : Opening) (close : Spot),
      config.limits.timeoutMs = none →
      (Layout.ofSource (.ofText text)).braceFault? = none →
      (Layout.ofSource (.ofText other)).braceFault? = none →
      (Source.ofText text).mainHeader? = some (header, col) →
      (Source.ofText other).mainHeader? = some (header, col') →
      brace ∈ (Source.ofText text).pairing.openingsOf header → brace.col = col →
      brace.partner = some close →
      (∀ line, header ≤ line → line < close.line →
        (Source.ofText other).line line = (Source.ofText text).line line) →
      ((Source.ofText other).line close.line).take (close.col + 1) =
        ((Source.ofText text).line close.line).take (close.col + 1) →
      run config clock other = run config clock text := by
  intro same
  have runs := same .standard .still "func main() \x7b // \x7d \x7b\nprint \"a\";\n\x7d"
    "func main() \x7b // \x7d \x7b\nprint \"b\";\n\x7d" 0 12 12 ⟨12, some ⟨0, 17⟩⟩ ⟨0, 17⟩ rfl
    (by decide +kernel) (by decide +kernel) (by decide +kernel) (by decide +kernel)
    (by decide +kernel) rfl rfl (fun line _ before => absurd before (Nat.not_lt_zero line))
    (by decide +kernel)
  revert runs
  decide +kernel

end LineScript
