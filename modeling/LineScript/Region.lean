import LineScript.Braces
import LineScript.Token.Scan

/-!
# The lines that run

Only the body of the first `func main()` is executed. A source without one is executed as a
whole, or refused, as the configuration says.
-/

namespace LineScript

/-- What happens to a source without `main`. -/
inductive EntryRule where
  /-- The whole source is executed. -/
  | wholeSource
  /-- The source is refused. -/
  | mainRequired
deriving DecidableEq

/-- A range of lines to execute: the line of the header before it, if there is one, the first
line, and the line after the last. -/
structure Region where
  header : Option Nat
  first : Nat
  stop : Nat
deriving DecidableEq

/-- The column of the opening brace, if the tokens are exactly those of a header of `main`. -/
def mainBrace? : List Token → Option Nat
  | [word, name, left, right, brace] =>
    if word.kind = .keyword .function ∧ name.kind = .name ∧ name.text = "main".toList ∧
        left.kind = .openParen ∧ right.kind = .closeParen ∧ brace.kind = .openBrace then
      some brace.col
    else none
  | _ => none

/-- The first header of `main`: its line and the column of its brace. -/
def Source.mainHeader? (source : Source) : Option (Nat × Nat) :=
  source.lines.toList.zipIdx.findSome? fun (line, index) =>
    (mainBrace? (scanCode line)).map fun col => (index, col)

/-- The lines of a source to execute. -/
def Layout.region (layout : Layout) (rule : EntryRule) : Except Fault Region :=
  match layout.source.mainHeader? with
  | none =>
    match rule with
    | .wholeSource => .ok ⟨none, 0, layout.source.size⟩
    | .mainRequired => .error ⟨.mainMissing, .start⟩
  | some (line, col) =>
    match layout.pairing.closeOf line col layout.source.size with
    | some close => .ok ⟨some line, line + 1, close.line⟩
    | none => .error ⟨.mainOpen, .clamped line col⟩

end LineScript
