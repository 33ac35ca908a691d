import LineScript.Proofs.RoundTrip
import LineScript.Run
import LineScript.Token.Table

/-!
# Line endings

A text without carriage returns is its lines joined by newlines, one line more than there are
newlines. Writing a carriage return in front of some of the newlines, or behind the whole text,
changes no line: cutting leaves it at the end of a piece, and there it is taken off. So the source
is the same, and with it all that is read off a source, every column of it included.

`ReturnsAdded` has a rule for each way to write one character of the text, and the choice is made
anew at every newline.
-/

namespace LineScript

/-- The second text is the first one with a carriage return in front of any of its newlines, and
with one more at the end or not. -/
inductive ReturnsAdded : List Char → List Char → Prop
  | stop : ReturnsAdded [] []
  | lastReturn : ReturnsAdded [] ['\r']
  | keep (c : Char) {text other : List Char} (rest : ReturnsAdded text other) :
      ReturnsAdded (c :: text) (c :: other)
  | newline {text other : List Char} (rest : ReturnsAdded text other) :
      ReturnsAdded ('\n' :: text) ('\r' :: '\n' :: other)

theorem ReturnsAdded.append (front : List Char) {text other : List Char}
    (rest : ReturnsAdded text other) : ReturnsAdded (front ++ text) (front ++ other) := by
  induction front with
  | nil => exact rest
  | cons c front ih => exact .keep c ih

theorem ReturnsAdded.refl (text : List Char) : ReturnsAdded text text := by
  have same := append text .stop
  rwa [List.append_nil] at same

/-- Only a carriage return is taken off, so any other character in front of a line stays. -/
theorem dropReturn_cons {c : Char} (other : c ≠ '\r') (line : Line) :
    dropReturn (c :: line) = c :: dropReturn line := by
  have solid : [c].getLast? ≠ some '\r' := by simp [other]
  exact Written.dropReturn_append solid line

/-- The lines that are cut from the second text are the pieces of the first. -/
theorem ReturnsAdded.map_dropReturn {text other : List Char} (added : ReturnsAdded text other)
    (free : '\r' ∉ text) :
    ((cutAt '\n' other).1 :: (cutAt '\n' other).2).map dropReturn =
      (cutAt '\n' text).1 :: (cutAt '\n' text).2 := by
  induction added with
  | stop => rfl
  | lastReturn => rfl
  | @keep c text other rest ih =>
      obtain ⟨plain, later⟩ := not_or.mp (mt List.mem_cons.mpr free)
      have same := ih later
      by_cases ends : c = '\n'
      · rw [ends, cutAt_mark, cutAt_mark, List.map_cons, same]
        rfl
      · rw [List.map_cons] at same
        obtain ⟨first, behind⟩ := List.cons.inj same
        rw [cutAt_cons ends, cutAt_cons ends, List.map_cons, dropReturn_cons (Ne.symm plain), first,
          behind]
  | newline rest ih =>
      have same := ih fun mem => free (List.mem_cons_of_mem _ mem)
      rw [cutAt_mark, cutAt_cons (by decide), cutAt_mark, List.map_cons, same]
      rfl

namespace Source

/-- A source is determined by its lines. -/
theorem eq_of_lines {source other : Source} (same : source.lines = other.lines) :
    source = other := by
  cases source
  cases other
  cases same
  rfl

variable {text other : String}

theorem lines_ofText (free : '\r' ∉ text.toList) :
    (ofText text).lines.toList = (cutAt '\n' text.toList).1 :: (cutAt '\n' text.toList).2 :=
  (ReturnsAdded.refl text.toList).map_dropReturn free

theorem size_ofText (free : '\r' ∉ text.toList) :
    (ofText text).size = text.toList.count '\n' + 1 := by
  rw [size, ← Array.length_toList, lines_ofText free, List.length_cons, length_cutAt]

theorem joinLines_lines (free : '\r' ∉ text.toList) :
    joinLines (ofText text).lines.toList = text := by
  rw [lines_ofText free, joinLines, intercalate_cutAt, String.ofList_toList]

theorem ofText_eq_of_returnsAdded (free : '\r' ∉ text.toList)
    (added : ReturnsAdded text.toList other.toList) : ofText other = ofText text := by
  refine eq_of_lines (Array.toList_inj.mp ?_)
  rw [lines_ofText free]
  exact added.map_dropReturn free

end Source

/-- The second text has the lines of the first, so it does the same and has the same tokens. -/
structure ReadsAs (text other : String) : Prop where
  lines : (Source.ofText other).lines = (Source.ofText text).lines
  stop : (Source.ofText other).stop = (Source.ofText text).stop
  run : ∀ config clock, run config clock other = run config clock text
  table : (Source.ofText other).tokenTable = (Source.ofText text).tokenTable

/-- The text is its lines, divided by its newlines. -/
structure IsItsLines (text : String) : Prop where
  size : (Source.ofText text).size = text.toList.count '\n' + 1
  joined : joinLines (Source.ofText text).lines.toList = text

/-- A text without carriage returns is its lines, and carriage returns at their ends are not
seen. -/
theorem returnsAdded_unseen {text other : String} (free : '\r' ∉ text.toList)
    (added : ReturnsAdded text.toList other.toList) : IsItsLines text ∧ ReadsAs text other := by
  have same := Source.ofText_eq_of_returnsAdded free added
  refine ⟨⟨Source.size_ofText free, Source.joinLines_lines free⟩, ?_⟩
  constructor
  · rw [same]
  · rw [same]
  · intro config clock
    rw [run, run, same]
  · rw [same]

/-- Of three newlines the second has a carriage return in front of it, and there is one at the end.
The last statement has a fault, which both texts report at the same place. -/
theorem returnsAdded_unseen_mixed :
    let text := "print \"a\";\n\n\tprint \"b\" + b;\n"
    let other := "print \"a\";\n\r\n\tprint \"b\" + b;\n\r"
    ReturnsAdded text.toList other.toList ∧ IsItsLines text ∧ ReadsAs text other ∧
      run .standard .still other = .fault ⟨.undeclared "b", ⟨2, 13⟩⟩ := by
  intro text other
  let front := "print \"a\";\n".toList
  let back := "\tprint \"b\" + b;\n".toList
  have ends : text.toList = front ++ '\n' :: (back ++ []) := by decide
  have returned : other.toList = front ++ '\r' :: '\n' :: (back ++ ['\r']) := by decide
  have added : ReturnsAdded text.toList other.toList := by
    rw [ends, returned]
    exact .append front (.newline (.append back .lastReturn))
  obtain ⟨lines, reads⟩ := returnsAdded_unseen (by decide) added
  have ran : run .standard .still text = .fault ⟨.undeclared "b", ⟨2, 13⟩⟩ := by decide +kernel
  exact ⟨added, lines, reads, (reads.run .standard .still).trans ran⟩

end LineScript
