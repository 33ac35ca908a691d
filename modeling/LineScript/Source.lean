import LineScript.Pos
import LineScript.Text.Cut

/-!
# Source texts

A program is read line by line. A text is cut at every newline, and one carriage return is
taken off the end of each line, so both line endings give the same columns. A text that ends
in a newline has an empty last line; the empty text is one empty line.
-/

namespace LineScript

/-- One line, without its line ending. -/
abbrev Line := List Char

/-- The lines of a program, of which there is at least one. -/
structure Source where
  lines : Array Line
  size_pos : 0 < lines.size

/-- Takes one carriage return off the end. -/
def dropReturn (line : List Char) : Line :=
  if line.getLast? = some '\r' then line.dropLast else line

namespace Source

/-- The lines of a text given as characters. -/
def ofChars (text : List Char) : Source :=
  let cut := cutAt '\n' text
  ⟨((cut.1 :: cut.2).map dropReturn).toArray, by simp⟩

/-- The lines of a text. -/
def ofText (text : String) : Source :=
  ofChars text.toList

/-- The number of lines. -/
def size (source : Source) : Nat :=
  source.lines.size

/-- The line at an index, if the source is that long. -/
def line? (source : Source) (index : Nat) : Option Line :=
  source.lines[index]?

/-- The line at an index, where lines past the end count as empty. -/
def line (source : Source) (index : Nat) : Line :=
  (source.line? index).getD []

/-- The last line. -/
def last (source : Source) : Line :=
  source.line (source.size - 1)

/-- The position just past the last character. -/
def stop (source : Source) : Pos :=
  .clamped (source.size - 1) source.last.length

end Source

theorem Source.line_of_size_le {source : Source} {index : Nat} (h : source.size ≤ index) :
    source.line index = [] := by
  have : source.lines[index]? = none := Array.getElem?_eq_none h
  simp [Source.line, Source.line?, this]

theorem Source.line_mem {source : Source} {index : Nat} (h : index < source.size) :
    source.line index ∈ source.lines := by
  have : source.lines[index]? = some source.lines[index] := Array.getElem?_eq_getElem h
  rw [Source.line, Source.line?, this, Option.getD_some]
  exact Array.getElem_mem h

end LineScript
