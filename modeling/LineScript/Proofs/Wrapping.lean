import LineScript.Proofs.Balance
import LineScript.Proofs.FaultPlace
import LineScript.Proofs.Isolation

/-!
# A program inside `main`

A text without a header of `main` is executed as a whole. Put between a header and a closing brace
it becomes the body of `main`, and the same lines are executed one row further down: `run_inMain`
says that the runs agree up to this row.

The two sources are compared through `Source.Wraps`, which says how their lines correspond. The
brace that ends `main` lies at the bottom of every stack of waiting braces, so the lines of the
inner source find their own partners above it.
-/

namespace LineScript

/-! ## The lines of a wrapped text -/

theorem Source.toList_lines_ofChars (text : List Char) :
    (ofChars text).lines.toList = ((cutAt '\n' text).1 :: (cutAt '\n' text).2).map dropReturn := by
  rw [ofChars, List.toList_toArray]

/-- The header of `main`. -/
def mainLine : Line :=
  "func main() \x7b".toList

/-- A text as the body of `main`. -/
def inMain (text : String) : String :=
  "func main() \x7b\n" ++ text ++ "\n\x7d"

/-- The lines of `inner` stand in `outer` between a header of `main` and a closing brace. -/
structure Source.Wraps (outer inner : Source) : Prop where
  size : outer.size = inner.size + 2
  header : outer.line 0 = mainLine
  body : ∀ line < inner.size, outer.line (line + 1) = inner.line line
  close : outer.line (inner.size + 1) = ['\x7d']

theorem Source.wraps_inMain (text : String) : (ofText (inMain text)).Wraps (ofText text) := by
  have chars : (inMain text).toList = mainLine ++ '\n' :: (text.toList ++ '\n' :: ['\x7d']) := by
    have front : "func main() \x7b\n".toList = mainLine ++ ['\n'] := by decide
    have back : "\n\x7d".toList = ['\n', '\x7d'] := by decide
    unfold inMain
    rw [String.toList_append, String.toList_append, front, back, List.append_assoc,
      List.append_assoc]
    rfl
  have lines : (ofText (inMain text)).lines.toList =
      mainLine :: ((ofText text).lines.toList ++ [['\x7d']]) := by
    rw [ofText, ofText, chars, toList_lines_ofChars, toList_lines_ofChars, cutAt_append_mark,
      cutAt_append_mark]
    simp only [List.map_cons, List.map_append, List.cons_append]
    rfl
  have length : (ofText text).lines.toList.length = (ofText text).size := Array.length_toList
  have line_eq (source : Source) (index : Nat) :
      source.line index = (source.lines.toList[index]?).getD [] := by
    rw [line, line?, Array.getElem?_toList]
  constructor
  · rw [size, ← Array.length_toList, lines]
    simp [size]
  · rw [line_eq, lines]
    rfl
  · intro index inside
    rw [line_eq, line_eq, lines, List.getElem?_cons_succ,
      List.getElem?_append_left (by rw [length]; exact inside)]
  · rw [line_eq, lines, List.getElem?_cons_succ,
      List.getElem?_append_right (Nat.le_of_eq length), length, Nat.sub_self]
    rfl

namespace Source.Wraps

variable {outer inner : Source} {rule : EntryRule}

/-- The stack of the outer source is that of the inner one, above the brace that ends `main`. -/
theorem waiting (wraps : outer.Wraps inner)
    (balanced : (Layout.ofSource inner).braceFault? = none) {line : Nat}
    (upto : line ≤ inner.size) :
    outer.waiting (line + 1) =
      (inner.waiting line).map (Spot.down 1) ++ [⟨inner.size + 1, 0⟩] := by
  obtain ⟨-, enough⟩ := braceFault?_eq_none_iff.mp balanced
  induction left : inner.size - line generalizing line with
  | zero =>
      obtain rfl : line = inner.size := by omega
      have past : outer.waiting (inner.size + 1 + 1) = [] :=
        waiting_of_size_le (Nat.le_of_eq wraps.size)
      rw [waiting_eq, wraps.close, past, waiting_of_size_le (Nat.le_refl _)]
      rfl
  | succ n ih =>
      have inside : line < inner.size := by omega
      have found := enough line
      rw [waiting_eq, wraps.body line inside, ih inside (by omega), pairText_stack, pairText_down,
        waiting_eq inner line, pairText_stack line 0 (inner.line line) (inner.waiting (line + 1)),
        List.drop_append_of_le_length (by rw [List.length_map]; exact found), List.map_append,
        List.map_drop, List.append_assoc]

/-- The outer source is balanced if the inner one is. -/
theorem balanced (wraps : outer.Wraps inner)
    (balanced : (Layout.ofSource inner).braceFault? = none) :
    (Layout.ofSource outer).braceFault? = none := by
  obtain ⟨clear, enough⟩ := braceFault?_eq_none_iff.mp balanced
  have first := wraps.waiting balanced (Nat.zero_le _)
  rw [clear] at first
  rw [braceFault?_eq_none_iff]
  constructor
  · rw [waiting_eq, wraps.header, first]
    rfl
  · intro line
    rcases Nat.lt_trichotomy line (inner.size + 1) with before | rfl | past
    · cases line with
      | zero =>
          have one : leftOpen mainLine = 1 := by decide
          rw [wraps.header, first, one]
          exact Nat.le_refl 1
      | succ line =>
          have inside : line + 1 ≤ inner.size := Nat.le_of_lt_succ before
          rw [wraps.body line inside, wraps.waiting balanced inside, List.length_append,
            List.length_map]
          exact Nat.le_add_right_of_le (enough line)
    · rw [wraps.close]
      exact Nat.zero_le _
    · rw [line_of_size_le (by rw [wraps.size]; exact past)]
      exact Nat.zero_le _

/-- The inner source is the body of the first `main` of the outer one. -/
theorem region (wraps : outer.Wraps inner)
    (balanced : (Layout.ofSource inner).braceFault? = none) :
    (Layout.ofSource outer).region rule = .ok ⟨some 0, 1, inner.size + 1⟩ := by
  obtain ⟨clear, -⟩ := braceFault?_eq_none_iff.mp balanced
  have first := wraps.waiting balanced (Nat.zero_le _)
  rw [clear] at first
  have header : outer.mainHeader? = some (0, 12) := by
    rw [mainHeader?_eq_some_iff, headerBrace?, wraps.header]
    refine ⟨outer.size_pos, by decide +kernel, ?_⟩
    intro before earlier
    cases earlier
  have ends : outer.pairing.closeOf 0 12 outer.size = some ⟨inner.size + 1, 0⟩ := by
    have opened : leftOpen (mainLine.drop 12) = 1 := by decide
    rw [closeOf_pairing, wraps.header, opened, first, wraps.size]
    simp
  rw [region_main header, ends]

/-- The program of the outer source is that of the inner one, one row further down. -/
theorem ofSource (wraps : outer.Wraps inner)
    (balanced : (Layout.ofSource inner).braceFault? = none) (small : inner.size < UInt32.size) :
    Program.ofSource rule outer = .ok ⟨⟨some 0, 1, inner.size + 1⟩,
      ((Layout.ofSource inner).block 0 inner.size).map (Stmt.down 1)⟩ := by
  have relocated : (Layout.ofSource inner).Relocated (Layout.ofSource outer) 1 0 inner.size := by
    apply relocated
    · intro line _ inside
      exact wraps.body line inside
    · intro line _ inside
      exact ofNatClamp_add (by omega)
  have body : (Layout.ofSource outer).block 1 (inner.size + 1) =
      ((Layout.ofSource inner).block 0 inner.size).map (Stmt.down 1) :=
    relocated.block (Nat.le_refl 0) (Nat.le_refl _)
  rw [Program.ofSource_of_region (wraps.balanced balanced) (wraps.region balanced), body]

end Source.Wraps

/-- Wrapping a program in `main` only shifts lines: a balanced text in which no line is a header of
`main` prints the same lines as the body of `main`, or it fails with the same cause in the same
column, one line further down. -/
theorem run_inMain (rule : EntryRule) (limits : Limits) (clock : Clock) (text : String)
    (balanced : (Layout.ofSource (.ofText text)).braceFault? = none)
    (plain : ∀ line ∈ (Source.ofText text).lines, mainBrace? (scanCode line) = none)
    (small : (Source.ofText text).size < UInt32.size - 2) :
    match run ⟨.wholeSource, limits⟩ clock text with
    | .output lines => run ⟨rule, limits⟩ clock (inMain text) = .output lines
    | .fault fault => ∃ pos, run ⟨rule, limits⟩ clock (inMain text) = .fault ⟨fault.cause, pos⟩ ∧
        pos.col = fault.pos.col ∧ pos.line.toNat = fault.pos.line.toNat + 1 := by
  have missing : (Source.ofText text).mainHeader? = none := by
    rw [Source.mainHeader?_eq_none_iff]
    intro line inside
    apply plain
    rw [Source.line, Source.line?, Array.getElem?_eq_getElem inside]
    exact Array.getElem_mem inside
  have read : Program.ofSource .wholeSource (.ofText text) =
      .ok ⟨⟨none, 0, (Source.ofText text).size⟩,
        (Layout.ofSource (.ofText text)).block 0 (Source.ofText text).size⟩ :=
    Program.ofSource_of_region balanced (Source.region_wholeSource missing)
  have wrapped := @Source.Wraps.ofSource _ _ rule (Source.wraps_inMain text) balanced (by omega)
  have moved : run ⟨rule, limits⟩ clock (inMain text) =
      (run ⟨.wholeSource, limits⟩ clock text).down 1 := by
    simp only [run, Source.run, wrapped, read]
    exact Outcome.ofEnd_down 1 limits clock _
  cases result : run ⟨.wholeSource, limits⟩ clock text with
  | output lines =>
      rw [result] at moved
      exact moved
  | fault fault =>
      rw [result] at moved
      refine ⟨fault.pos.down 1, moved, rfl, ?_⟩
      -- The fault points into the text, so its line is not the last that can be counted.
      obtain ⟨line, col, points⟩ := Source.marks_run result
      have inside := points.inside
      have here : fault.pos.line.toNat = line := by
        rw [points.pos]
        exact Pos.clamped_line col (by omega)
      have words : UInt32.size = 4294967296 := rfl
      rw [Pos.down, UInt32.toNat_add, here, UInt32.toNat_one]
      exact Nat.mod_eq_of_lt (by omega)

/-- A choice and a variable without a value on the last line. -/
theorem run_inMain_undeclared :
    let text := "var i = 0;\nif i == 0 \x7b\n\x7d else \x7b\n\x7d\nprint \"j=\" + j;"
    (Layout.ofSource (.ofText text)).braceFault? = none ∧
      (∀ line ∈ (Source.ofText text).lines, mainBrace? (scanCode line) = none) ∧
      (Source.ofText text).size < UInt32.size - 2 ∧
      run ⟨.wholeSource, .standard⟩ .still text = .fault ⟨.undeclared "j", ⟨4, 13⟩⟩ ∧
      ∃ pos, run ⟨.mainRequired, .standard⟩ .still (inMain text) = .fault ⟨.undeclared "j", pos⟩ ∧
        pos.col = 13 ∧ pos.line.toNat = 4 + 1 := by
  intro text
  have balanced : (Layout.ofSource (.ofText text)).braceFault? = none := by decide +kernel
  have plain : ∀ line ∈ (Source.ofText text).lines, mainBrace? (scanCode line) = none := by
    decide +kernel
  have small : (Source.ofText text).size < UInt32.size - 2 := by decide +kernel
  have failed : run ⟨.wholeSource, .standard⟩ .still text =
      .fault ⟨.undeclared "j", ⟨4, 13⟩⟩ := by decide +kernel
  have wrapped := run_inMain .mainRequired .standard .still text balanced plain small
  rw [failed] at wrapped
  exact ⟨balanced, plain, small, failed, wrapped⟩

end LineScript
