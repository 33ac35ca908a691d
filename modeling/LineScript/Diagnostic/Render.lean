import LineScript.Diagnostic
import LineScript.Source

/-!
# Diagnostics on a terminal

A rendering is a list of spans, each a text with at most one ink. Printed in color, a span
with an ink is put between the escape sequence of the ink and the reset sequence; printed
plainly, only its text is left. Color can therefore never change the text itself.

Where the source is known and has the marked line, a mark is shown as a snippet: the line
behind a gutter with its number, and below it a caret under the marked column.
-/

namespace LineScript

/-- When to print in color. -/
inductive ColorMode where
  | auto | always | never
deriving DecidableEq

namespace ColorMode

/-- The word for a mode, as it is typed after `--color=`. -/
def word : ColorMode → String
  | auto => "auto"
  | always => "always"
  | never => "never"

/-- The mode a user typed, which must be exact. -/
def ofText? (text : String) : Option ColorMode :=
  [auto, always, never].find? fun mode => mode.word = text

/-- Whether to print in color, given whether the output is a terminal. -/
def colored (mode : ColorMode) (terminal : Bool) : Bool :=
  match mode with
  | auto => terminal
  | always => true
  | never => false

end ColorMode

/-- The inks of a rendering. -/
inductive Ink where
  | red | yellow | cyan | green | blue | bold
deriving DecidableEq

/-- The escape sequence that switches an ink on. -/
def Ink.escape : Ink → String
  | red => "\x1b[1;31m"
  | yellow => "\x1b[1;33m"
  | cyan => "\x1b[1;36m"
  | green => "\x1b[1;32m"
  | blue => "\x1b[1;34m"
  | bold => "\x1b[1m"

/-- The escape sequence that switches every ink off. -/
def inkOff : String := "\x1b[0m"

/-- A text in one ink or none. -/
structure Span where
  text : String
  ink : Option Ink
deriving DecidableEq

namespace Span

/-- A text without ink. -/
def plain (text : String) : Span := ⟨text, none⟩

/-- What is printed for a span. -/
def print (colored : Bool) (span : Span) : String :=
  match colored, span.ink with
  | true, some ink => ink.escape ++ span.text ++ inkOff
  | _, _ => span.text

end Span

/-- The ink of a severity. -/
def Severity.ink : Severity → Ink
  | error => .red
  | warning => .yellow
  | note => .cyan
  | help => .green

namespace Mark

/-- The ink of a mark. -/
def ink (mark : Mark) : Ink :=
  if mark.primary then .red else .blue

/-- The arrow before the location of a mark, as wide for secondary marks. -/
def arrow (mark : Mark) : String :=
  if mark.primary then "-->" else "   "

/-- Where a mark is, after the name of the file if it is known. -/
def location (path : Option String) (mark : Mark) : String :=
  match path with
  | some path => path ++ ":" ++ mark.pos.display
  | none => mark.pos.display

end Mark

/-- How many decimal digits a number has. -/
def digitCount (n : Nat) : Nat :=
  if n < 10 then 1 else digitCount (n / 10) + 1

/-- The text of `count` spaces. -/
def spaces (count : Nat) : String :=
  String.ofList (List.replicate count ' ')

/-- What is written before the caret: as many characters as the column, a tab wherever the
line has one there and a space elsewhere. -/
def caretPad (line : Line) (col : Nat) : String :=
  String.ofList
    ((line.take col).map (fun c => if c = '\t' then '\t' else ' ') ++
      List.replicate (col - line.length) ' ')

/-- The rows of a mark on a line that is known. -/
def Mark.snippet (path : Option String) (line : Line) (mark : Mark) : List Span :=
  let number := mark.pos.line.toNat + 1
  let gutter := spaces (digitCount number)
  [.plain (gutter ++ mark.arrow ++ " " ++ mark.location path ++ "\n"),
   .plain (gutter ++ " |\n"),
   .plain (toString number ++ " | " ++ String.ofList line ++ "\n"),
   .plain (gutter ++ " | " ++ caretPad line mark.pos.col.toNat),
   ⟨"^", mark.ink⟩,
   .plain " ",
   ⟨mark.remark, mark.ink⟩,
   .plain "\n"]

/-- The row of a mark whose line is not known. -/
def Mark.remarkRow (path : Option String) (mark : Mark) : List Span :=
  [.plain ("  " ++ mark.arrow ++ " " ++ mark.location path ++ ": "),
   ⟨mark.remark, mark.ink⟩,
   .plain "\n"]

/-- The rows of a mark. -/
def Mark.spans (source : Option Source) (path : Option String) (mark : Mark) : List Span :=
  match source.bind fun text => text.line? mark.pos.line.toNat with
  | some line => mark.snippet path line
  | none => mark.remarkRow path

namespace Diagnostic

/-- The rows of a diagnostic, closed by an empty one. -/
def spans (source : Option Source) (path : Option String) (diagnostic : Diagnostic) : List Span :=
  [⟨diagnostic.severity.word, some diagnostic.severity.ink⟩,
   ⟨"[" ++ diagnostic.code.number ++ "]", some .bold⟩,
   .plain (": " ++ diagnostic.message ++ "\n")] ++
  diagnostic.marks.flatMap (Mark.spans source path) ++
  diagnostic.notes.flatMap (fun note =>
    [.plain "  = ", ⟨"note", some .bold⟩, .plain (": " ++ note ++ "\n")]) ++
  diagnostic.hints.flatMap (fun hint =>
    [.plain "  = ", ⟨"help", some .green⟩, .plain (": " ++ hint ++ "\n")]) ++
  [.plain "\n"]

/-- What is printed for a list of diagnostics. -/
def render (colored : Bool) (source : Option Source) (path : Option String)
    (diagnostics : List Diagnostic) : String :=
  String.join ((diagnostics.flatMap (spans source path)).map (Span.print colored))

end Diagnostic

end LineScript
