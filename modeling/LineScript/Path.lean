import LineScript.Text.Cut

/-!
# Paths

Enough about paths to recognise a program by the extension of its file name, and to look a file
up in a folder. Empty parts and single dots mean nothing in a path.
-/

namespace LineScript.Path

/-- The parts of a path that mean something. -/
def parts (path : String) : List String :=
  let cut := cutAt '/' path.toList
  ((cut.1 :: cut.2).map String.ofList).filter fun part => part ≠ "" ∧ part ≠ "."

/-- The last part of a path, if it is a name. -/
def fileName? (path : String) : Option String :=
  (parts path).getLast?.filter fun part => part ≠ ".."

/-- What follows the last dot of a file name, unless that dot comes first. -/
def extension? (path : String) : Option String :=
  match fileName? path with
  | none => none
  | some name =>
    let cut := cutAt '.' name.toList
    match cut.2.getLast? with
    | none => none
    | some last => if name.length = last.length + 1 then none else some (String.ofList last)

/-- Whether a path names a program, which its extension tells in any ASCII case. -/
def isProgram (path : String) : Bool :=
  match extension? path with
  | none => false
  | some text => text.toList.map Char.toLower = "cr".toList

end LineScript.Path
