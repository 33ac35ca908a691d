import LineScript.Stmt.Block

/-!
# Programs

A source is made a program in three stages: its braces must be balanced, the lines to run are
found, and those lines are read. Only the first two stages can refuse a source.
-/

namespace LineScript

/-- The lines that run and their statements. -/
structure Program where
  region : Region
  body : List Stmt

/-- The program of a source, or the fault for which it is refused. -/
def Program.ofSource (rule : EntryRule) (source : Source) : Except Fault Program :=
  let layout := Layout.ofSource source
  match layout.braceFault? with
  | some fault => .error fault
  | none =>
    match layout.region rule with
    | .error fault => .error fault
    | .ok region => .ok ⟨region, layout.block region.first region.stop⟩

end LineScript
