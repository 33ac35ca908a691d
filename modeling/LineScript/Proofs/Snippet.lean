import LineScript.Proofs.FrontEnds

/-!
# The caret under the marked column

A mark on a known line is shown in four rows. The last two are the line behind a gutter with its
number, and a caret behind a blank gutter and some padding. The caret stands under the marked column
because the two gutters have the same width and the padding is as long as the column.

The width is found by dividing by ten and not from the number as it is written, so
`digitCount_eq_length` has to show that the two agree: the number then fills its gutter, whatever it
is. The padding is put together from the line in front of the column and from what the line is too
short for; `getElem?_caretPad` looks at it character by character. A tab is repeated, so the caret
stays under its column wherever tabs lead.

A mark on a line that is not known has one row of its own.
-/

namespace LineScript

/-! ## Renderings in pieces -/

/-- What is printed for some spans. -/
def Span.printAll (colored : Bool) (spans : List Span) : String :=
  String.join (spans.map (print colored))

namespace Span

variable {colored : Bool}

theorem printAll_nil : printAll colored [] = "" := String.join_nil

theorem printAll_cons (span : Span) (spans : List Span) :
    printAll colored (span :: spans) = span.print colored ++ printAll colored spans := by
  rw [printAll, List.map_cons, String.join_cons, printAll]

theorem printAll_append (front back : List Span) :
    printAll colored (front ++ back) = printAll colored front ++ printAll colored back := by
  rw [printAll, List.map_append, String.join_append, printAll, printAll]

end Span

/-- The text ends with a whole row. -/
def EndsRow (text : String) : Prop :=
  text.toList.getLast? = some '\n'

theorem EndsRow.append {back : String} (ends : EndsRow back) (front : String) :
    EndsRow (front ++ back) := by
  rw [EndsRow, String.toList_append, List.getLast?_append, ends]
  rfl

/-- A text that ends with a row still does so in front of pieces that end with rows. -/
theorem EndsRow.append_flatMap {α : Type} {colored : Bool} {front : String} (ends : EndsRow front)
    {items : List α} {spans : α → List Span}
    (each : ∀ item, EndsRow (Span.printAll colored (spans item))) :
    EndsRow (front ++ Span.printAll colored (items.flatMap spans)) := by
  induction items generalizing front with
  | nil =>
      rw [List.flatMap_nil, Span.printAll_nil, String.append_empty]
      exact ends
  | cons item rest ih =>
      rw [List.flatMap_cons, Span.printAll_append, ← String.append_assoc]
      exact ih ((each item).append front)

theorem EndsRow.printAll {colored : Bool} {text : String} (ends : EndsRow text)
    (front : List Span) : EndsRow (Span.printAll colored (front ++ [.plain text])) := by
  rw [Span.printAll_append, Span.printAll_cons, Span.printAll_nil, Span.print_plain,
    String.append_empty]
  exact ends.append _

theorem Mark.endsRow (source : Option Source) (path : Option String) (colored : Bool)
    (mark : Mark) : EndsRow (Span.printAll colored (mark.spans source path)) := by
  have ends : EndsRow "\n" := by rw [EndsRow]; decide
  rw [spans]
  split
  · exact ends.printAll (_ :: _ :: _ :: _ :: _ :: _ :: [_])
  · exact ends.printAll (_ :: [_])

namespace Diagnostic

variable {diagnostics : List Diagnostic} {diagnostic : Diagnostic} {mark : Mark}

/-- The row above the marks. -/
def heading (diagnostic : Diagnostic) : List Span :=
  [⟨diagnostic.severity.word, some diagnostic.severity.ink⟩,
   ⟨"[" ++ diagnostic.code.number ++ "]", some .bold⟩,
   .plain (": " ++ diagnostic.message ++ "\n")]

/-- The rows below the marks. -/
def footing (diagnostic : Diagnostic) : List Span :=
  diagnostic.notes.flatMap (fun note =>
    [.plain "  = ", ⟨"note", some .bold⟩, .plain (": " ++ note ++ "\n")]) ++
  diagnostic.hints.flatMap (fun hint =>
    [.plain "  = ", ⟨"help", some .green⟩, .plain (": " ++ hint ++ "\n")]) ++
  [.plain "\n"]

theorem spans_eq (source : Option Source) (path : Option String) (diagnostic : Diagnostic) :
    diagnostic.spans source path =
      diagnostic.heading ++ diagnostic.marks.flatMap (Mark.spans source path) ++
        diagnostic.footing := by
  simp only [spans, heading, footing, List.append_assoc]

theorem endsRow_heading (colored : Bool) (diagnostic : Diagnostic) :
    EndsRow (Span.printAll colored diagnostic.heading) := by
  have ends : EndsRow "\n" := by rw [EndsRow]; decide
  exact (ends.append _).printAll (_ :: [_])

/-- The rows of a mark stand in the rendering behind whole rows. -/
theorem exists_render_eq (mem : diagnostic ∈ diagnostics) (inside : mark ∈ diagnostic.marks)
    (colored : Bool) (source : Option Source) (path : Option String) :
    ∃ front back, render colored source path diagnostics =
        front ++ Span.printAll colored (mark.spans source path) ++ back ∧ EndsRow front := by
  obtain ⟨before, after, rfl⟩ := List.append_of_mem mem
  obtain ⟨earlier, later, marks⟩ := List.append_of_mem inside
  let print := Span.printAll colored
  refine ⟨print (before.flatMap (spans source path)) ++ print diagnostic.heading ++
      print (earlier.flatMap (Mark.spans source path)),
    print (later.flatMap (Mark.spans source path)) ++ print diagnostic.footing ++
      print (after.flatMap (spans source path)), ?_, ?_⟩
  · change print _ = _
    rw [List.flatMap_append, List.flatMap_cons, spans_eq, marks, List.flatMap_append,
      List.flatMap_cons]
    simp only [print, Span.printAll_append, String.append_assoc]
  · exact ((endsRow_heading colored diagnostic).append _).append_flatMap
      (Mark.endsRow source path colored)

end Diagnostic

/-! ## The gutter and the padding -/

/-- A number has as many digits as it is divided by ten until nothing is left. -/
theorem digitCount_eq_length (number : Nat) : digitCount number = (toString number).length := by
  rw [← String.length_toList, toList_number]
  fun_induction digitCount number with
  | case1 number small =>
      rw [Nat.toDigits_of_lt_base small]
      rfl
  | case2 number large ih =>
      rw [Nat.toDigits_of_base_le (by decide) (Nat.le_of_not_lt large), List.length_append, ih]
      rfl

theorem length_caretPad (line : Line) (col : Nat) : (caretPad line col).length = col := by
  rw [caretPad, String.length_ofList, List.length_append, List.length_map, List.length_take,
    List.length_replicate]
  omega

/-- The padding has the tabs of the line and blanks elsewhere. -/
theorem getElem?_caretPad (text : Line) {col index : Nat} (inside : index < col) :
    (caretPad text col).toList[index]? =
      some (if text[index]? = some '\t' then '\t' else ' ') := by
  rw [caretPad, String.toList_ofList]
  by_cases onLine : index < text.length
  · rw [List.getElem?_append_left (by simp; omega), List.getElem?_map,
      List.getElem?_take_of_lt inside, List.getElem?_eq_getElem onLine, Option.map_some,
      Option.some_inj]
    simp
  · rw [List.getElem?_append_right (by simp; omega), List.getElem?_replicate,
      List.getElem?_eq_none (Nat.le_of_not_lt onLine), List.length_map, List.length_take,
      if_pos (by omega), if_neg (by simp)]

/-- The characters of a text that stands behind another one. -/
theorem getElem?_toList_append (front back : String) (index : Nat) :
    (front ++ back).toList[front.length + index]? = back.toList[index]? := by
  rw [String.toList_append,
    List.getElem?_append_right (by rw [String.length_toList]; exact Nat.le_add_right _ _),
    String.length_toList, Nat.add_sub_cancel_left]

/-- A number is written in digits only. -/
theorem not_mem_number {c : Char} (other : c.isDigit = false) (number : Nat) :
    c ∉ (toString number).toList := by
  rw [toList_number]
  intro mem
  have digit := isDigit_of_mem_number mem
  rw [other] at digit
  cases digit

theorem toList_spaces (count : Nat) : (spaces count).toList = List.replicate count ' ' :=
  String.toList_ofList

theorem length_spaces (count : Nat) : (spaces count).length = count := by
  rw [spaces, String.length_ofList, List.length_replicate]

/-! ## Marks -/

/-- The rows are part of the text, and they begin behind whole rows. -/
def HasRows (text rows : String) : Prop :=
  ∃ front back, text = front ++ rows ++ back ∧ EndsRow front

namespace Mark

/-- The place of a mark as people count, behind the name of the file if it is known. -/
def place (path : Option String) (mark : Mark) : String :=
  path.elim "" (fun name => name ++ ":") ++ toString (mark.pos.line.toNat + 1) ++ ":" ++
    toString (mark.pos.col.toNat + 1)

theorem location_eq (path : Option String) (mark : Mark) :
    mark.location path = mark.place path := by
  cases path with
  | none => rw [location, place, Pos.display, Option.elim_none, String.empty_append]
  | some name =>
      simp only [location, place, Pos.display, Option.elim_some, String.append_assoc]

/-- The row of a line behind its number. -/
def lineRow (mark : Mark) (line : Line) : String :=
  toString (mark.pos.line.toNat + 1) ++ " | " ++ String.ofList line

/-- The row of the caret. -/
def caretRow (mark : Mark) (gutter pad : String) : String :=
  gutter ++ " | " ++ pad ++ "^ " ++ mark.remark

/-- The caret of a mark stands in the rows under the marked column of the line. -/
structure Points (mark : Mark) (path : Option String) (text : Line) (gutter pad rows : String) :
    Prop where
  rows : rows = gutter ++ mark.arrow ++ " " ++ mark.place path ++ "\n" ++ gutter ++ " |\n" ++
    mark.lineRow text ++ "\n" ++ mark.caretRow gutter pad ++ "\n"
  /-- There is a blank for each digit of the line number. -/
  blank : gutter.toList = List.replicate (toString (mark.pos.line.toNat + 1)).length ' '
  length : pad.length = mark.pos.col.toNat
  tabs : ∀ index < mark.pos.col.toNat,
    pad.toList[index]? = some (if text[index]? = some '\t' then '\t' else ' ')
  /-- Both rows have the line from the same place on. -/
  under : ∃ start, (∀ index, (mark.lineRow text).toList[start + index]? = text[index]?) ∧
    (mark.caretRow gutter pad).toList[start + mark.pos.col.toNat]? = some '^'

theorem snippet_points (mark : Mark) (path : Option String) (line : Line) :
    mark.Points path line (spaces (digitCount (mark.pos.line.toNat + 1)))
      (caretPad line mark.pos.col.toNat) (Span.printAll false (mark.snippet path line)) := by
  have width := digitCount_eq_length (mark.pos.line.toNat + 1)
  have pad := length_caretPad line mark.pos.col.toNat
  constructor
  case rows =>
    simp only [snippet, lineRow, caretRow, location_eq, Span.printAll_cons, Span.printAll_nil,
      Span.print_plain, String.append_assoc]
    rfl
  case blank => rw [width, toList_spaces]
  case length => exact pad
  case tabs => exact fun index inside => getElem?_caretPad line inside
  case under =>
    refine ⟨(toString (mark.pos.line.toNat + 1) ++ " | ").length, ?_, ?_⟩
    · intro index
      rw [lineRow, getElem?_toList_append, String.toList_ofList]
    · have front : (toString (mark.pos.line.toNat + 1) ++ " | ").length + mark.pos.col.toNat =
          (spaces (digitCount (mark.pos.line.toNat + 1)) ++ " | " ++
            caretPad line mark.pos.col.toNat).length + 0 := by
        simp only [String.length_append, pad, length_spaces, width, Nat.add_zero]
      rw [caretRow, String.append_assoc, front, getElem?_toList_append, String.toList_append]
      rfl

/-- The row of a mark whose line is not known. -/
def asideRow (path : Option String) (mark : Mark) : String :=
  "  " ++ mark.arrow ++ " " ++ mark.place path ++ ": " ++ mark.remark

theorem printAll_remarkRow (path : Option String) (mark : Mark) :
    Span.printAll false (mark.remarkRow path) = mark.asideRow path ++ "\n" := by
  simp only [remarkRow, asideRow, location_eq, Span.printAll_cons, Span.printAll_nil,
    Span.print_plain, String.append_assoc]
  rfl

/-- The row is one line if the texts that it is made of are. -/
theorem newline_not_mem_asideRow {path : Option String} {mark : Mark}
    (named : ∀ name, path = some name → '\n' ∉ name.toList) (remark : '\n' ∉ mark.remark.toList) :
    '\n' ∉ (mark.asideRow path).toList := by
  have number (n : Nat) : '\n' ∉ (toString n).toList := not_mem_number (by decide) n
  have arrow : '\n' ∉ mark.arrow.toList := by
    rw [Mark.arrow]
    split <;> decide
  have name : '\n' ∉ (path.elim "" fun name => name ++ ":").toList := by
    cases path with
    | none => decide
    | some name => simp [named name rfl]
  simp only [toList_number] at number
  simp [asideRow, place, arrow, name, remark, number]

end Mark

/-- How the marks of some diagnostics are shown without color. -/
structure ShowsMarks (source : Option Source) (path : Option String)
    (diagnostics : List Diagnostic) : Prop where
  known : ∀ diagnostic ∈ diagnostics, ∀ mark ∈ diagnostic.marks, ∀ text line,
    source = some text → text.line? mark.pos.line.toNat = some line →
    ∃ gutter pad rows, mark.Points path line gutter pad rows ∧
      HasRows (Diagnostic.render false source path diagnostics) rows
  unknown : ∀ diagnostic ∈ diagnostics, ∀ mark ∈ diagnostic.marks,
    (∀ text, source = some text → text.line? mark.pos.line.toNat = none) →
    HasRows (Diagnostic.render false source path diagnostics) (mark.asideRow path ++ "\n") ∧
      ((∀ name, path = some name → '\n' ∉ name.toList) → '\n' ∉ mark.remark.toList →
        '\n' ∉ (mark.asideRow path).toList)

/-- Carets stand under the marked columns, and a mark without its line is shown in one row. -/
theorem render_showsMarks (source : Option Source) (path : Option String)
    (diagnostics : List Diagnostic) : ShowsMarks source path diagnostics := by
  constructor
  case known =>
    intro diagnostic mem mark inside text line given found
    have rows := Diagnostic.exists_render_eq mem inside false source path
    have spans : mark.spans source path = mark.snippet path line := by
      rw [Mark.spans, given, Option.bind_some, found]
    rw [spans] at rows
    exact ⟨_, _, _, mark.snippet_points path line, rows⟩
  case unknown =>
    intro diagnostic mem mark inside missing
    have rows := Diagnostic.exists_render_eq mem inside false source path
    have spans : mark.spans source path = mark.remarkRow path := by
      have found : (source.bind fun text => text.line? mark.pos.line.toNat) = none :=
        Option.bind_eq_none_iff.mpr missing
      rw [Mark.spans, found]
    rw [spans, Mark.printAll_remarkRow] at rows
    exact ⟨rows, Mark.newline_not_mem_asideRow⟩

/-- The tenth line begins with a tab and ends in front of the marked column. -/
theorem render_showsMarks_tenth :
    let source := Source.ofText "\n\n\n\n\n\n\n\n\n\t\u00e9"
    let diagnostic := Fault.diagnostic ⟨.unterminated, ⟨9, 4⟩⟩
    let mark : Mark := ⟨⟨9, 4⟩, "expected `;`", true⟩
    mark ∈ diagnostic.marks ∧ source.line? 9 = some ['\t', '\u00e9'] ∧
      ∃ gutter pad rows, mark.Points (some "a.cr") ['\t', '\u00e9'] gutter pad rows ∧
        HasRows (Diagnostic.render false (some source) (some "a.cr") [diagnostic]) rows := by
  intro source diagnostic mark
  have inside : mark ∈ diagnostic.marks := by decide
  have found : source.line? 9 = some ['\t', '\u00e9'] := by decide
  have shown := (render_showsMarks (some source) (some "a.cr") [diagnostic]).known
  exact ⟨inside, found, shown diagnostic List.mem_cons_self mark inside source _ rfl found⟩

/-- All rows of that diagnostic. -/
example :
    Diagnostic.render false (some (.ofText "\n\n\n\n\n\n\n\n\n\t\u00e9")) (some "a.cr")
        [Fault.diagnostic ⟨.unterminated, ⟨9, 4⟩⟩] =
      "error[E1002]: missing semicolon or invalid syntax\n  --> a.cr:10:5\n   |\n10 | \t\u00e9\n" ++
        "   | \t   ^ expected `;`\n  = help: add `;` at the end of the line\n\n" := by
  decide +kernel

end LineScript
