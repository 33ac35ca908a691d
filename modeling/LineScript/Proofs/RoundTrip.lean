import LineScript.Proofs.WrittenBlocks

/-!
# Reading undoes writing

A text is cut into the lines that it was joined from, none of which has a newline in it. Together
with the blocks of written lines this gives the round trip: whatever the trees, the indentation
and the lines around them are, reading exactly the lines of the trees gives their statements.

Positions are words of 32 bits. On a text within these bounds every statement has the index of its
line and every operand the line and the column of its first character.
-/

namespace LineScript

/-- Cutting undoes joining. -/
theorem cutAt_intercalate {α : Type} [DecidableEq α] {mark : α} {piece : List α}
    {pieces : List (List α)} (plain : ∀ each ∈ piece :: pieces, mark ∉ each) :
    cutAt mark ([mark].intercalate (piece :: pieces)) = (piece, pieces) := by
  induction pieces generalizing piece with
  | nil =>
      rw [List.intercalate_singleton]
      exact cutAt_of_not_mem (plain piece List.mem_cons_self)
  | cons second pieces ih =>
      rw [List.intercalate_cons_cons, List.append_assoc, List.singleton_append, cutAt_append_mark,
        cutAt_of_not_mem (plain piece List.mem_cons_self),
        ih fun each mem => plain each (List.mem_cons_of_mem piece mem), List.nil_append]

/-- Joining undoes cutting. -/
theorem intercalate_cutAt {α : Type} [DecidableEq α] (mark : α) (items : List α) :
    [mark].intercalate ((cutAt mark items).1 :: (cutAt mark items).2) = items := by
  induction items with
  | nil => rw [cutAt_nil, List.intercalate_singleton]
  | cons x rest ih =>
      by_cases same : x = mark
      · rw [same, cutAt_mark, List.intercalate_cons_cons, ih]
        rfl
      · rw [cutAt_cons same]
        generalize cutAt mark rest = cut at ih
        obtain ⟨piece, pieces⟩ := cut
        cases pieces with
        | nil =>
            rw [List.intercalate_singleton] at ih ⊢
            rw [ih]
        | cons second pieces =>
            rw [List.intercalate_cons_cons] at ih ⊢
            rw [← ih, List.cons_append, List.cons_append]

theorem not_mem_cutAt {α : Type} [DecidableEq α] (mark : α) (items : List α) :
    ∀ piece ∈ (cutAt mark items).1 :: (cutAt mark items).2, mark ∉ piece := by
  induction items with
  | nil => simp
  | cons x rest ih =>
      by_cases same : x = mark
      · rw [same, cutAt_mark]
        intro piece mem
        rcases List.mem_cons.mp mem with rfl | mem
        · exact List.not_mem_nil
        · exact ih piece mem
      · rw [cutAt_cons same]
        intro piece mem
        rcases List.mem_cons.mp mem with rfl | mem
        · rw [List.mem_cons, not_or]
          exact ⟨Ne.symm same, ih _ List.mem_cons_self⟩
        · exact ih piece (List.mem_cons_of_mem _ mem)

/-- The text of the given lines. -/
def joinLines (lines : List Line) : String :=
  String.ofList (['\n'].intercalate lines)

/-- Every text is that of some lines. -/
theorem exists_joinLines (text : String) :
    ∃ lines, lines ≠ [] ∧ (∀ line ∈ lines, '\n' ∉ line) ∧ joinLines lines = text := by
  refine ⟨_, List.cons_ne_nil _ _, not_mem_cutAt '\n' text.toList, ?_⟩
  rw [joinLines, intercalate_cutAt, String.ofList_toList]

theorem Source.lines_joinLines {lines : List Line} (nonempty : lines ≠ [])
    (plain : ∀ line ∈ lines, '\n' ∉ line) :
    (ofText (joinLines lines)).lines = (lines.map dropReturn).toArray := by
  cases lines with
  | nil => exact (nonempty rfl).elim
  | cons first rest =>
      rw [joinLines, ofText, String.toList_ofList, ofChars]
      dsimp only
      rw [cutAt_intercalate plain]

theorem Source.size_joinLines {lines : List Line} (nonempty : lines ≠ [])
    (plain : ∀ line ∈ lines, '\n' ∉ line) : (ofText (joinLines lines)).size = lines.length := by
  rw [size, lines_joinLines nonempty plain, List.size_toArray, List.length_map]

theorem Source.line?_joinLines {lines : List Line} (nonempty : lines ≠ [])
    (plain : ∀ line ∈ lines, '\n' ∉ line) (index : Nat) :
    (ofText (joinLines lines)).line? index = lines[index]?.map dropReturn := by
  rw [line?, lines_joinLines nonempty plain, List.getElem?_toArray, List.getElem?_map]

theorem Source.line_joinLines {lines : List Line} (plain : ∀ line ∈ lines, '\n' ∉ line)
    (index : Nat) (inside : index < lines.length) :
    (Source.ofText (joinLines lines)).line index = dropReturn lines[index] := by
  have nonempty : lines ≠ [] := List.ne_nil_of_length_pos (Nat.zero_lt_of_lt inside)
  rw [line, line?_joinLines nonempty plain, List.getElem?_eq_getElem inside]
  rfl

theorem Source.holds_of_line {source : Source} {start : Nat} {lines : List Line}
    (same : ∀ index (inside : index < lines.length),
      source.line (start + index) = dropReturn lines[index]) : source.Holds start lines := by
  induction lines generalizing start with
  | nil => trivial
  | cons line rest ih =>
      refine ⟨same 0 (Nat.zero_lt_succ _), ih fun index inside => ?_⟩
      have later := same (index + 1) (Nat.succ_lt_succ inside)
      rw [Nat.add_assoc, Nat.add_comm 1 index]
      exact later

/-- A text holds the lines that it is joined from. -/
theorem Source.holds_joinLines {before lines after : List Line}
    (plain : ∀ line ∈ before ++ lines ++ after, '\n' ∉ line) :
    (Source.ofText (joinLines (before ++ lines ++ after))).Holds before.length lines := by
  refine holds_of_line fun index inside => ?_
  rw [line_joinLines plain _ (by simp; omega)]
  congr 1
  rw [List.getElem_append_left (by simp [inside]), List.getElem_append_right (by omega)]
  simp

namespace Written

/-! ## Lines without newlines -/

/-- The characters of a class without newlines are no newlines. -/
theorem ne_newline {p : Char → Bool} (newline : p '\n' = false) {c : Char} (mem : p c = true) :
    c ≠ '\n' := by
  rintro rfl
  rw [newline] at mem
  cases mem

/-- A lexeme stays on its line. -/
structure OneLine (lexeme : Lexeme) : Prop where
  gap : '\n' ∉ lexeme.gap
  text : '\n' ∉ lexeme.text

theorem OneLine.spaced {lexeme : Lexeme} (one : OneLine lexeme) : OneLine lexeme.spaced :=
  ⟨by simp [Lexeme.spaced], one.text⟩

theorem Part.oneLine {lexeme : Lexeme} (part : Part lexeme) : OneLine lexeme := by
  induction part with
  | name name =>
      exact ⟨by simp [Name.lexeme], fun mem =>
        ne_newline rfl (name.isNameChar_of_mem mem) rfl⟩
  | number number =>
      exact ⟨by simp [Number.lexeme], fun mem => ne_newline rfl (number.isDigit_of_mem mem) rfl⟩
  | quote text =>
      refine ⟨by simp [Quote.lexeme], fun mem => ?_⟩
      have inside : '\n' ∈ text.chars := by simpa [Quote.lexeme] using mem
      exact (text.plain _ inside).2 rfl
  | remark text =>
      refine ⟨by simp [Remark.lexeme], fun mem => ?_⟩
      have inside : '\n' ∈ text.chars := by simpa [Remark.lexeme] using mem
      exact (text.plain _ inside).2.2 rfl
  | keyword word => cases word <;> exact ⟨by decide, by decide⟩
  | comparison op => cases op <;> exact ⟨by decide, by decide⟩
  | equals => exact ⟨by decide, by decide⟩
  | plus => exact ⟨by decide, by decide⟩
  | semicolon => exact ⟨by decide, by decide⟩
  | spaced _ ih => exact ih.spaced

theorem openBrace_oneLine : OneLine openBrace := ⟨by decide, by decide⟩

theorem closeBrace_oneLine : OneLine closeBrace := ⟨by decide, by decide⟩

theorem Style.oneLine_write (style : Style) (line : Nat) {lexemes : List Lexeme}
    (one : ∀ lexeme ∈ lexemes, OneLine lexeme) : '\n' ∉ style.write line lexemes := by
  have free : '\n' ∉ Lexeme.write lexemes := by
    induction lexemes with
    | nil => exact List.not_mem_nil
    | cons lexeme rest ih =>
        have first := one lexeme List.mem_cons_self
        simp only [Lexeme.write, List.mem_append, not_or]
        exact ⟨⟨first.gap, first.text⟩, ih fun other mem => one other (List.mem_cons_of_mem _ mem)⟩
  rw [Style.write, List.mem_append, not_or]
  refine ⟨fun mem => ?_, free⟩
  rcases (style.indent line).blank _ mem with same | same <;> cases same

theorem Style.oneLine_head (style : Style) (line : Nat) (head : Head) :
    '\n' ∉ style.write line head.lexemes := by
  obtain ⟨front, same, parts⟩ := head.parts
  refine style.oneLine_write line fun lexeme mem => ?_
  rw [same, List.mem_append, List.mem_singleton] at mem
  rcases mem with mem | rfl
  · exact (parts lexeme mem).oneLine
  · exact openBrace_oneLine.spaced

theorem Style.oneLine_close (style : Style) (line : Nat) :
    '\n' ∉ style.write line [closeBrace] := by
  refine style.oneLine_write line fun lexeme mem => ?_
  rw [List.mem_singleton.mp mem]
  exact closeBrace_oneLine

theorem Style.oneLine_between (style : Style) (line : Nat) :
    ∀ text ∈ style.between line, '\n' ∉ text := by
  have other : OneLine (keyword .otherwise) := (Part.keyword .otherwise).oneLine
  intro text mem
  rw [between] at mem
  split at mem
  · rcases List.mem_cons.mp mem with rfl | mem
    · exact style.oneLine_close line
    · rw [List.mem_singleton.mp mem]
      refine style.oneLine_write (line + 1) fun lexeme mem => ?_
      simp only [List.mem_cons, List.not_mem_nil, or_false] at mem
      rcases mem with rfl | rfl
      · exact other
      · exact openBrace_oneLine.spaced
  · rw [List.mem_singleton.mp mem]
    refine style.oneLine_write line fun lexeme mem => ?_
    simp only [List.mem_cons, List.not_mem_nil, or_false] at mem
    rcases mem with rfl | rfl | rfl
    · exact closeBrace_oneLine
    · exact other.spaced
    · exact openBrace_oneLine.spaced

mutual

theorem oneLine_tree {style : Style} {line : Nat} (tree : Tree) :
    ∀ text ∈ tree.lines style line, '\n' ∉ text := by
  intro text mem
  match tree with
  | .plain stmt =>
      rw [Tree.lines, List.mem_singleton] at mem
      rw [mem]
      exact style.oneLine_write line fun lexeme mem => (stmt.parts lexeme mem).oneLine
  | .block head body =>
      simp only [Tree.lines, List.mem_cons, List.mem_append, List.not_mem_nil, or_false] at mem
      rcases mem with rfl | mem | rfl
      · exact style.oneLine_head line head
      · exact oneLine_trees body text mem
      · exact style.oneLine_close _
  | .choice check body other =>
      simp only [Tree.lines, List.mem_cons, List.mem_append, List.not_mem_nil, or_false] at mem
      rcases mem with rfl | mem | mem | mem | rfl
      · exact style.oneLine_head line (.branch check)
      · exact oneLine_trees body text mem
      · exact style.oneLine_between _ text mem
      · exact oneLine_trees other text mem
      · exact style.oneLine_close _

theorem oneLine_trees {style : Style} {line : Nat} (trees : List Tree) :
    ∀ text ∈ Tree.allLines style line trees, '\n' ∉ text := by
  intro text mem
  match trees with
  | [] => cases mem
  | tree :: rest =>
      rw [Tree.allLines, List.mem_append] at mem
      rcases mem with mem | mem
      · exact oneLine_tree tree text mem
      · exact oneLine_trees rest text mem

end

/-! ## Positions within bounds -/

section

variable {pos pos' : Nat → Pos}

/-- A statement asks only for positions on its line. -/
theorem Plain.action_congr (stmt : Plain)
    (agree : ∀ count ≤ (Lexeme.write stmt.lexemes).length, pos count = pos' count) :
    stmt.action pos = stmt.action pos' := by
  cases stmt with
  | blank => rfl
  | remark text => rfl
  | printText text => rfl
  | printValue text value =>
      have word : Keyword.print.spelling.toList.length = 5 := rfl
      have fixed : "print \"\" + ".length = 11 := rfl
      rw [action, action, agree]
      simp [lexemes, Lexeme.write, Lexeme.spaced, keyword, Quote.lexeme, plus, word, fixed]
      omega
  | declare name value =>
      have word : Keyword.declare.spelling.toList.length = 3 := rfl
      have fixed : "var  = ".length = 7 := rfl
      rw [action, action, agree]
      simp [lexemes, Lexeme.write, Lexeme.spaced, keyword, Name.lexeme, equals, word, fixed]
      omega
  | assign dest lhs rhs =>
      have first : " = ".length = 3 := rfl
      have second : " =  + ".length = 6 := rfl
      have left : lhs.lexeme.text.length = lhs.chars.length := by cases lhs <;> rfl
      rw [action, action, agree 0 (Nat.zero_le _), agree (" = ".length + _), agree]
      · simp [lexemes, Lexeme.write, Lexeme.spaced, Name.lexeme, equals, plus, second, left]
        omega
      · simp [lexemes, Lexeme.write, Lexeme.spaced, Name.lexeme, equals, first]
        omega

theorem Check.test_congr (check : Check)
    (agree : ∀ count ≤ (Lexeme.write check.lexemes).length, pos count = pos' count) :
    check.test pos = check.test pos' := by
  have word : Keyword.branch.spelling.toList.length = 2 := rfl
  have fixed : "if ".length = 3 := rfl
  rw [test, test, agree]
  simp [lexemes, Lexeme.write, Lexeme.spaced, keyword, word, fixed]
  omega

theorem Head.stmt_congr (head : Head) (line : UInt32) (block : List Stmt)
    (agree : ∀ count ≤ (Lexeme.write head.lexemes).length, pos count = pos' count) :
    head.stmt line pos block = head.stmt line pos' block := by
  cases head with
  | loop guard bound =>
      have word : Keyword.loop.spelling.toList.length = 5 := rfl
      have fixed : "while ".length = 6 := rfl
      rw [stmt, stmt, agree]
      simp [lexemes, Lexeme.write, Lexeme.spaced, keyword, word, fixed]
      omega
  | branch check => rw [stmt, stmt, check.test_congr agree]

end

theorem Style.column_lt {style : Style} {line : Nat} {lexemes : List Lexeme} {columns count : Nat}
    (narrow : (style.write line lexemes).length < columns)
    (le : count ≤ (Lexeme.write lexemes).length) : style.column line count < columns := by
  rw [write, List.length_append] at narrow
  rw [column]
  omega

section

variable {style : Style} {place place' : Nat → Nat → Pos} {lines columns : Nat}

mutual

/-- A statement asks only for positions within the bounds of its lines. -/
theorem stmt_congr (agree : ∀ line < lines, ∀ col < columns, place line col = place' line col)
    {line : Nat} (tree : Tree) (inside : line + (tree.lines style line).length ≤ lines)
    (narrow : ∀ text ∈ tree.lines style line, text.length < columns) :
    tree.stmt style place line = tree.stmt style place' line := by
  match tree with
  | .plain stmt =>
      rw [Tree.lines] at inside narrow
      have own := narrow _ List.mem_cons_self
      have here : line < lines := inside
      rw [Tree.stmt, Tree.stmt, agree line here 0 (Nat.zero_lt_of_lt own)]
      congr 1
      exact stmt.action_congr fun count le => agree line here _ (Style.column_lt own le)
  | .block head body =>
      rw [length_block] at inside
      rw [Tree.lines] at narrow
      have own := narrow _ List.mem_cons_self
      have here : line < lines := by omega
      rw [Tree.stmt, Tree.stmt, agree line here 0 (Nat.zero_lt_of_lt own),
        stmts_congr agree body (by omega) fun text mem =>
          narrow text (List.mem_cons_of_mem _ (List.mem_append_left _ mem))]
      exact head.stmt_congr _ _ fun count le => agree line here _ (Style.column_lt own le)
  | .choice check body other =>
      rw [length_choice style line check body other rfl rfl] at inside
      rw [Tree.lines] at narrow
      have own := narrow _ List.mem_cons_self
      have here : line < lines := by omega
      rw [Tree.stmt, Tree.stmt, agree line here 0 (Nat.zero_lt_of_lt own),
        stmts_congr agree body (by omega) fun text mem =>
          narrow text (List.mem_cons_of_mem _ (List.mem_append_left _ mem)),
        stmts_congr agree other (by omega) fun text mem =>
          narrow text (List.mem_cons_of_mem _ (List.mem_append_right _
            (List.mem_append_right _ (List.mem_append_left _ mem))))]
      congr 1
      exact check.test_congr fun count le => agree line here _ (Style.column_lt own le)

theorem stmts_congr (agree : ∀ line < lines, ∀ col < columns, place line col = place' line col)
    {line : Nat} (trees : List Tree)
    (inside : line + (Tree.allLines style line trees).length ≤ lines)
    (narrow : ∀ text ∈ Tree.allLines style line trees, text.length < columns) :
    Tree.stmts style place line trees = Tree.stmts style place' line trees := by
  match trees with
  | [] => rfl
  | tree :: rest =>
      rw [Tree.allLines] at inside narrow
      rw [List.length_append] at inside
      rw [Tree.stmts, Tree.stmts,
        stmt_congr agree tree (by omega) fun text mem =>
          narrow text (List.mem_append_left _ mem),
        stmts_congr agree rest (by omega) fun text mem =>
          narrow text (List.mem_append_right _ mem)]

end

end

/-- Positions within 32 bits are not clamped. -/
theorem clamped_eq_exactly {line col : Nat} (lines : line < UInt32.size)
    (columns : col < UInt32.size) : Pos.clamped line col = exactly line col := by
  have word {value : Nat} (small : value < UInt32.size) :
      UInt32.ofNatClamp value = UInt32.ofNat value := by
    rw [UInt32.ofNatClamp, dif_pos small, UInt32.ofNatLT_eq_ofNat]
  rw [Pos.clamped, exactly, word lines, word columns]

/-- Reading undoes writing: the block of exactly the lines of some trees, among any other lines,
are their statements, each on its own line and each operand where it is written. -/
theorem block_joinLines (style : Style) (trees : List Tree) (before after : List Line)
    (plain : ∀ line ∈ before ++ after, '\n' ∉ line)
    (lines : before.length + (Tree.allLines style before.length trees).length ≤ UInt32.size)
    (columns : ∀ line ∈ Tree.allLines style before.length trees, line.length < UInt32.size) :
    (Source.ofText
        (joinLines (before ++ Tree.allLines style before.length trees ++ after))).block
      before.length (before.length + (Tree.allLines style before.length trees).length) =
      Tree.stmts style exactly before.length trees := by
  have all : ∀ line ∈ before ++ Tree.allLines style before.length trees ++ after,
      '\n' ∉ line := by
    intro line mem
    simp only [List.mem_append] at mem plain
    rcases mem with (mem | mem) | mem
    · exact plain line (.inl mem)
    · exact oneLine_trees trees line mem
    · exact plain line (.inr mem)
  rw [Source.block, block_trees trees (Source.holds_joinLines all)]
  exact stmts_congr (fun line lt col lt' => clamped_eq_exactly lt lt') trees lines columns

/-- A loop that raises a counter, with a choice in it. -/
def counter : List Tree :=
  let name : Name := ⟨'i', [], rfl, by simp, rfl⟩
  let one : Number := ⟨1, by decide⟩
  [.plain (.declare name (.number ⟨0, by decide⟩)),
    .block (.loop name ⟨3, by decide⟩)
      [.choice ⟨name, .eq, one⟩
        [.plain (.printText ⟨"\x7b\x7d".toList, by simp, by decide⟩)]
        [.plain (.printValue ⟨"i=".toList, by simp, by decide⟩ (.name name))],
      .plain (.assign name (.name name) (.number one))]]

/-- Every other line is indented, and the other block of a choice is opened on its own line. -/
def ragged : Style where
  indent line := if line % 2 = 0 then ⟨[' ', '\t'], by simp⟩ else ⟨[], by simp⟩
  split _ := true

/-- How the loop is written behind a line with a stray brace. -/
def counterText : String :=
  "\x7d\nvar i = 0;\n \twhile i < 3 \x7b\nif i == 1 \x7b\n \tprint \"\x7b\x7d\";\n" ++
    "\x7d\n \telse \x7b\nprint \"i=\" + i;\n \t\x7d\ni = i + 1;\n \t\x7d"

theorem block_joinLines_counter :
    (Source.ofText counterText).block 1 11 =
      [.action 1 (.declare "i" (.literal 0 ⟨1, 8⟩)),
        .loop 2 ⟨"i", ⟨2, 8⟩⟩ 3
          [.choice 3 ⟨⟨"i", ⟨3, 3⟩⟩, .eq, 1⟩
            [.action 4 (.printText "\x7b\x7d")]
            [.action 7 (.printValue "i=" (.var ⟨"i", ⟨7, 13⟩⟩))],
          .action 9 (.assign ⟨"i", ⟨9, 0⟩⟩ (.var ⟨"i", ⟨9, 4⟩⟩) (.literal 1 ⟨9, 8⟩))]] := by
  have text : counterText =
      joinLines ([['\x7d']] ++ Tree.allLines ragged 1 counter ++ []) := by
    decide +kernel
  have read := block_joinLines ragged counter [['\x7d']] [] (by decide) (by decide +kernel)
    (by decide +kernel)
  rw [text]
  exact read

end Written

end LineScript
