/-!
# Positions

A position is a line and a column, both counted from zero and both words of 32 bits.
Columns count characters, never bytes. Counts that do not fit are clamped to the largest
word, so a position can be formed from any pair of natural numbers.
-/

namespace LineScript

/-- A zero-based line and column. -/
structure Pos where
  line : UInt32
  col : UInt32
deriving DecidableEq

namespace Pos

/-- The first character of a text. -/
def start : Pos := ⟨0, 0⟩

/-- The position of a line and column of any size, each clamped to 32 bits. -/
def clamped (line col : Nat) : Pos :=
  ⟨UInt32.ofNatClamp line, UInt32.ofNatClamp col⟩

/-- Reading order: by line, then by column. -/
instance : Ord Pos where
  compare a b := (compare a.line b.line).then (compare a.col b.col)

/-- The form shown to people, `line:col`, counted from one. The sums are taken in `Nat`, so
the last line and column have a number of their own. -/
def display (pos : Pos) : String :=
  toString (pos.line.toNat + 1) ++ ":" ++ toString (pos.col.toNat + 1)

/-- The zero-based pair `(line, col)`. -/
def zeroBased (pos : Pos) : String :=
  "(" ++ toString pos.line.toNat ++ ", " ++ toString pos.col.toNat ++ ")"

theorem clamped_line {line : Nat} (col : Nat) (h : line < UInt32.size) :
    (clamped line col).line.toNat = line := by
  simp only [clamped, UInt32.ofNatClamp]
  split
  · simp
  · simp_all

theorem clamped_col {col : Nat} (line : Nat) (h : col < UInt32.size) :
    (clamped line col).col.toNat = col := by
  simp only [clamped, UInt32.ofNatClamp]
  split
  · simp
  · simp_all

end Pos

end LineScript
