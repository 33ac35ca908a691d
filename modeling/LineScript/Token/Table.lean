import LineScript.Token.Scan

/-!
# Token listings

One row for each token of a source: where it stands, its kind, its characters. The first two
columns are padded to a fixed width and never cut.
-/

namespace LineScript

/-- Fills a text up with spaces to at least `width` characters. -/
def padRight (width : Nat) (text : String) : String :=
  text ++ String.ofList (List.replicate (width - text.length) ' ')

/-- The row of a token on the line with the given index. -/
def Token.row (line : Nat) (token : Token) : String :=
  padRight 8 (Pos.clamped line token.col).display ++ " " ++
    padRight 10 token.kind.label ++ " " ++ String.ofList token.text ++ "\n"

/-- The rows of all tokens of a source. -/
def Source.tokenTable (source : Source) : String :=
  String.join <| source.lines.toList.zipIdx.flatMap fun (line, index) =>
    (scan line).map (Token.row index)

end LineScript
