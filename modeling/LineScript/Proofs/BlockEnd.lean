import LineScript.Proofs.Balance

/-!
# The end of a block by its depth

Where a block ends is looked up in the pairing of the braces. It can also be found by a scan of the
depth: from the line behind the opener, with a depth that is still open, up to the first closing
brace that brings the depth to zero. `Source.scanClose` is this scan.

The two agree if the scan begins with the number of braces that the line leaves open, in every
source: `closeOf_eq_scanClose`. The change of depth on the line is that number only if the line
closes nothing that was opened before it. A line that first closes and then opens raises the depth
by less than it leaves open, and then the scan stops too early, at a brace further inside:
`closeOf_eq_scanClose_iff`.
-/

namespace LineScript

/-- The first closing brace of a text that brings the depth to zero. -/
def firstReturn : Int → List (Spot × Char) → Option Spot
  | _, [] => none
  | depth, (spot, c) :: rest =>
    match Brace.ofChar? c with
    | none => firstReturn depth rest
    | some .opening => firstReturn (depth + 1) rest
    | some .closing => if depth - 1 = 0 then some spot else firstReturn (depth - 1) rest

/-- A scan that begins with `depth + 1` open braces ends at the brace at this depth of the stack. -/
theorem firstReturn_succ (depth : Nat) (text : List (Spot × Char)) :
    firstReturn (depth + 1) text = (unclosed text)[depth]? := by
  induction text generalizing depth with
  | nil => rfl
  | cons place rest ih =>
      obtain ⟨spot, c⟩ := place
      rw [firstReturn, unclosed_cons]
      cases Brace.ofChar? c with
      | none => exact ih depth
      | some brace =>
          cases brace with
          | opening => exact (ih (depth + 1)).trans List.getElem?_tail.symm
          | closing =>
              dsimp only
              rw [Int.add_sub_cancel]
              cases depth with
              | zero => rfl
              | succ depth =>
                  rw [if_neg (by omega), List.getElem?_cons_succ]
                  exact ih depth

namespace Source

variable {source : Source} {line fromCol : Nat}

/-- The first closing brace that brings the depth to zero, if it is `depth` at the start of line
`line`. -/
def scanClose (source : Source) (line : Nat) (depth : Int) : Option Spot :=
  firstReturn depth (placesOf (source.lines.toList.zipIdx.drop line))

theorem scanClose_succ (source : Source) (line depth : Nat) :
    source.scanClose line (depth + 1) = (source.waiting line)[depth]? := by
  rw [scanClose, firstReturn_succ, waiting, pairLines_unclosed]

/-- No brace waits twice. -/
theorem nodup_waiting (source : Source) (line : Nat) : (source.waiting line).Nodup := by
  have split : source.places = placesOf (source.lines.toList.zipIdx.take line) ++
      placesOf (source.lines.toList.zipIdx.drop line) := by
    rw [places, placesOf, placesOf, placesOf, ← List.flatMap_append, List.take_append_drop]
  have sorted := source.places_sorted
  rw [InOrder, split] at sorted
  rw [waiting, pairLines_unclosed]
  refine (unclosed_sorted (List.pairwise_append.mp sorted).2.1).imp ?_
  rintro spot _ before rfl
  exact Spot.Before.irrefl spot before

/-- In the whole source the end of a block is the last brace that the rest of the line takes from
the stack. -/
theorem closeOf_whole (source : Source) (line fromCol : Nat) :
    source.pairing.closeOf line fromCol source.size =
      if leftOpen ((source.line line).drop fromCol) = 0 then none
      else (source.waiting (line + 1))[leftOpen ((source.line line).drop fromCol) - 1]? := by
  rw [closeOf_pairing]
  split
  · rfl
  · cases last : (source.waiting (line + 1))[leftOpen ((source.line line).drop fromCol) - 1]? with
    | none => rfl
    | some close =>
        have inside := (le_line_of_mem_waiting (List.mem_of_getElem? last)).2
        rw [Option.filter_some, if_pos (decide_eq_true inside)]

/-- A block ends where the scan does that begins with the number of braces that its line leaves
open. -/
theorem closeOf_eq_scanClose (opened : leftOpen (source.line line) ≠ 0) :
    source.pairing.closeOf line 0 source.size =
      source.scanClose (line + 1) (leftOpen (source.line line)) := by
  obtain ⟨depth, left⟩ := Nat.exists_eq_succ_of_ne_zero opened
  rw [closeOf_whole, List.drop_zero, if_neg opened, left]
  exact (scanClose_succ source (line + 1) depth).symm

/-- In a balanced source the block of a line that raises the depth ends where a scan does that
begins with the change of depth, exactly if the line closes no brace of a line before it. -/
theorem closeOf_eq_scanClose_iff (balanced : (Layout.ofSource source).braceFault? = none)
    (raises : 0 < depthChange (source.line line)) :
    source.pairing.closeOf line 0 source.size =
        source.scanClose (line + 1) (depthChange (source.line line)) ↔
      ∀ count, 0 ≤ depthChange ((source.line line).take count) := by
  have change := depthChange_eq (source.line line)
  have enough := (braceFault?_eq_none_iff.mp balanced).2 line
  obtain ⟨depth, raised⟩ := Int.eq_succ_of_zero_lt raises
  have opened : leftOpen (source.line line) ≠ 0 := by
    rw [leftOpen]
    omega
  obtain ⟨left, leaves⟩ := Nat.exists_eq_succ_of_ne_zero opened
  rw [← unmatched_fst_eq_zero_iff, closeOf_eq_scanClose opened, leaves, raised,
    Int.natCast_succ, scanClose_succ, scanClose_succ]
  -- Both are braces of one stack, in which none stands twice, so their depths can be compared.
  rw [List.getElem?_inj (by omega) (source.nodup_waiting (line + 1))]
  rw [leftOpen] at leaves
  omega

/-- The second line closes the quoted brace of the first and leaves two braces open. -/
def closesFirst : Source :=
  .ofText "print \"\x7b\";\nwhile i < 1 \x7b // \x7d \x7d \x7b \x7b\n\x7d\nprint \"x\";\n\x7d"

theorem closeOf_eq_scanClose_iff_closesFirst :
    (Layout.ofSource closesFirst).braceFault? = none ∧ 0 < depthChange (closesFirst.line 1) ∧
      (closesFirst.pairing.closeOf 1 0 closesFirst.size =
          closesFirst.scanClose 2 (depthChange (closesFirst.line 1)) ↔
        ∀ count, 0 ≤ depthChange ((closesFirst.line 1).take count)) := by
  have balanced : (Layout.ofSource closesFirst).braceFault? = none := by decide +kernel
  have raises : 0 < depthChange (closesFirst.line 1) := by decide +kernel
  exact ⟨balanced, raises, closeOf_eq_scanClose_iff balanced raises⟩

/-- The end of a block is not always where the scan of the depth finds it: on the line of
`closesFirst` that closes a brace and opens two, the scan stops at the inner one of the two. -/
theorem not_closeOf_eq_scanClose :
    ¬ ∀ (source : Source) (line : Nat), (Layout.ofSource source).braceFault? = none →
      line < source.size → 0 < depthChange (source.line line) →
      source.pairing.closeOf line 0 source.size =
        source.scanClose (line + 1) (depthChange (source.line line)) := by
  intro agree
  have same := agree closesFirst 1 (by decide +kernel) (by decide +kernel) (by decide +kernel)
  have ends : closesFirst.pairing.closeOf 1 0 closesFirst.size = some ⟨4, 0⟩ := by decide +kernel
  have scanned : closesFirst.scanClose 2 (depthChange (closesFirst.line 1)) = some ⟨2, 0⟩ := by
    decide +kernel
  rw [ends, scanned] at same
  cases same

end Source

end LineScript
