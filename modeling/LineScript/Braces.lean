import LineScript.Source
import LineScript.Fault

/-!
# Pairs of braces

Every brace of a source counts, also one inside a quotation or a comment. Reading from the
end of the text, the closing braces that still wait for a partner form a stack, and each
opening brace takes the one on top. What is left on the stack at the start of the text has
no partner; its top is the first such brace in reading order.

The same pairing decides whether a source is balanced and where each block ends.
-/

namespace LineScript

/-- The two braces. -/
inductive Brace where
  | opening | closing
deriving DecidableEq

/-- How a brace changes the depth. -/
def Brace.weight : Brace → Int
  | opening => 1
  | closing => -1

/-- The brace that a character is, if it is one. -/
def Brace.ofChar? (c : Char) : Option Brace :=
  if c = '{' then some .opening else if c = '}' then some .closing else none

/-- The braces of a line with their columns, from left to right. -/
def bracesOf (line : Line) : List (Nat × Brace) :=
  line.zipIdx.filterMap fun (c, col) => (Brace.ofChar? c).map fun brace => (col, brace)

/-- The change in depth from the start of a line to its end. -/
def depthChange (line : Line) : Int :=
  (bracesOf line).foldr (fun brace depth => brace.2.weight + depth) 0

/-- A line and column of a source, of any size. -/
structure Spot where
  line : Nat
  col : Nat
deriving DecidableEq

/-- An opening brace of a line and the closing brace it is paired with, if any. -/
structure Opening where
  col : Nat
  partner : Option Spot
deriving DecidableEq

/-- Meets one more brace, to the left of those met before: the openings of the line so far,
and the closing braces that wait, nearest first. -/
def meetBrace (line : Nat) (brace : Nat × Brace) (met : List Opening × List Spot) :
    List Opening × List Spot :=
  match brace.2 with
  | .closing => (met.1, ⟨line, brace.1⟩ :: met.2)
  | .opening => (⟨brace.1, met.2.head?⟩ :: met.1, met.2.tail)

/-- Pairs the braces of a line, given the closing braces that wait after it. -/
def pairLine (line : Nat) (text : Line) (waiting : List Spot) : List Opening × List Spot :=
  (bracesOf text).foldr (meetBrace line) ([], waiting)

/-- The openings of each line, and the closing braces without a partner in reading order. -/
structure Pairing where
  openings : Array (List Opening)
  strays : List Spot

/-- Pairs the braces of consecutive lines, each with its index. -/
def pairLines (lines : List (Line × Nat)) : List (List Opening) × List Spot :=
  lines.foldr (fun line met =>
    let paired := pairLine line.2 line.1 met.2
    (paired.1 :: met.1, paired.2)) ([], [])

/-- The pairing of the braces of a source. -/
def Source.pairing (source : Source) : Pairing :=
  let paired := pairLines source.lines.toList.zipIdx
  ⟨paired.1.toArray, paired.2⟩

namespace Pairing

/-- The openings of a line, from left to right. -/
def openingsOf (pairing : Pairing) (line : Nat) : List Opening :=
  (pairing.openings[line]?).getD []

/-- The end of the block that a line opens at or after a column: the partner of the first
opening brace there that the line itself does not close. There is none if that brace has no
partner, or has it on or after line `limit`. -/
def closeOf (pairing : Pairing) (line fromCol limit : Nat) : Option Spot :=
  let candidates := (pairing.openingsOf line).filter fun brace => fromCol ≤ brace.col
  match candidates.find? fun brace => brace.partner.map Spot.line ≠ some line with
  | none => none
  | some brace => brace.partner.filter fun close => line < close.line && close.line < limit

/-- The first fault of the braces: a closing brace without a partner, at its own place, or
else an opening one without a partner, reported at the end of the source. -/
def fault? (pairing : Pairing) (stop : Pos) : Option Fault :=
  match pairing.strays with
  | stray :: _ => some ⟨.strayClose, .clamped stray.line stray.col⟩
  | [] =>
    if pairing.openings.any fun line => line.any fun brace => brace.partner.isNone then
      some ⟨.missingClose, stop⟩
    else none

theorem closeOf_line {pairing : Pairing} {line fromCol limit : Nat} {close : Spot}
    (h : pairing.closeOf line fromCol limit = some close) :
    line < close.line ∧ close.line < limit := by
  unfold closeOf at h
  dsimp only at h
  split at h
  · cases h
  · rw [Option.filter_eq_some_iff] at h
    simpa using h.2

/-- A block that ends before a line ends before every later line, at the same brace. -/
theorem closeOf_mono {pairing : Pairing} {line fromCol limit limit' : Nat} {close : Spot}
    (h : pairing.closeOf line fromCol limit = some close) (le : limit ≤ limit') :
    pairing.closeOf line fromCol limit' = some close := by
  unfold closeOf at h ⊢
  dsimp only at h ⊢
  split at h
  · cases h
  · rw [Option.filter_eq_some_iff] at h ⊢
    refine ⟨h.1, ?_⟩
    have inside : line < close.line ∧ close.line < limit := by simpa using h.2
    simp only [Bool.and_eq_true, decide_eq_true_eq]
    omega

end Pairing

/-- A source together with the pairing of its braces. -/
structure Layout where
  source : Source
  pairing : Pairing

namespace Layout

/-- The layout of a source. -/
def ofSource (source : Source) : Layout :=
  ⟨source, source.pairing⟩

/-- The first fault of the braces of a source, if they are not balanced. -/
def braceFault? (layout : Layout) : Option Fault :=
  layout.pairing.fault? layout.source.stop

end Layout

end LineScript
