import LineScript.Proofs.Reading
import LineScript.Proofs.WrittenBraces

/-!
# Reading written blocks

The lines of a tree leave the stack of waiting braces as they found it, so each head is ended by
the brace that was written for it, at every depth. With that, reading the lines of a tree adds its
statement and goes on behind them, by induction on the tree.

A line of a source has lost the carriage return at its end. Only a comment can end in one, and it
stays the same statement without it.
-/

namespace LineScript

/-- The lines of a source from `start` on are the given ones, up to their line endings. -/
def Source.Holds (source : Source) (start : Nat) : List Line → Prop
  | [] => True
  | line :: rest => source.line start = dropReturn line ∧ source.Holds (start + 1) rest

theorem Source.holds_append {source : Source} {start : Nat} {left right : List Line} :
    source.Holds start (left ++ right) ↔
      source.Holds start left ∧ source.Holds (start + left.length) right := by
  induction left generalizing start with
  | nil => simp [Holds]
  | cons line rest ih =>
      rw [List.cons_append, Holds, Holds, ih, and_assoc, List.length_cons, Nat.add_right_comm]
      rfl

namespace Written

/-! ## Line endings -/

theorem dropReturn_append {left : Line} (solid : left.getLast? ≠ some '\r') (right : Line) :
    dropReturn (left ++ right) = left ++ dropReturn right := by
  cases right with
  | nil => simp [dropReturn, solid]
  | cons c rest =>
      have last : (left ++ c :: rest).getLast? = (c :: rest).getLast? := by
        rw [List.getLast?_append, List.getLast?_eq_some_getLast (List.cons_ne_nil c rest)]
        rfl
      rw [dropReturn, dropReturn, last]
      split
      · rw [List.dropLast_append_of_ne_nil (by simp)]
      · rfl

/-- A line keeps its last character if that is no carriage return. -/
theorem dropReturn_write (style : Style) (line : Nat) (front : List Lexeme) {last : Lexeme}
    (solid : last.text.getLast?.any (fun c => c ≠ '\r') = true) :
    dropReturn (style.write line (front ++ [last])) = style.write line (front ++ [last]) := by
  obtain ⟨c, text, visible⟩ := (Option.any_eq_true _ _).mp solid
  have ends : (style.write line (front ++ [last])).getLast? = some c := by
    simp [Style.write, Lexeme.write_append, Lexeme.write, List.getLast?_append, text]
  rw [dropReturn, ends, if_neg (by simpa using visible)]

/-- The comment without a carriage return at its end. -/
def Remark.received (text : Remark) : Remark where
  chars := dropReturn text.chars
  plain := by
    intro c mem
    refine text.plain c ?_
    rw [dropReturn] at mem
    split at mem
    · exact (List.dropLast_sublist text.chars).subset mem
    · exact mem

/-- The statement whose characters are received. -/
def Plain.received : Plain → Plain
  | remark text => remark text.received
  | stmt => stmt

theorem Plain.action_received (stmt : Plain) (pos : Nat → Pos) :
    stmt.received.action pos = stmt.action pos := by
  cases stmt <;> rfl

theorem dropReturn_plain (style : Style) (line : Nat) (stmt : Plain) :
    dropReturn (style.write line stmt.lexemes) = style.write line stmt.received.lexemes := by
  cases stmt with
  | blank =>
      rw [dropReturn, if_neg]
      · rfl
      · intro last
        have mem := List.mem_of_getLast? last
        rw [Style.write, Plain.lexemes, Lexeme.write, List.append_nil] at mem
        rcases (style.indent line).blank _ mem with same | same <;> cases same
  | remark text =>
      have slashes : style.write line (Plain.remark text).lexemes =
          ((style.indent line).chars ++ ['/', '/']) ++ text.chars := by
        simp [Style.write, Plain.lexemes, Lexeme.write, Remark.lexeme]
      rw [slashes, dropReturn_append (by simp)]
      simp [Style.write, Plain.lexemes, Plain.received, Lexeme.write, Remark.lexeme,
        Remark.received]
  | printText text =>
      exact dropReturn_write style line [_, _] rfl
  | printValue text value =>
      exact dropReturn_write style line [_, _, _, _] rfl
  | declare name value =>
      exact dropReturn_write style line [_, _, _, _] rfl
  | assign dest lhs rhs =>
      exact dropReturn_write style line [_, _, _, _, _] rfl

theorem dropReturn_head (style : Style) (line : Nat) (head : Head) :
    dropReturn (style.write line head.lexemes) = style.write line head.lexemes := by
  obtain ⟨front, same, -⟩ := head.parts
  rw [same]
  exact dropReturn_write style line front rfl

theorem dropReturn_close (style : Style) (line : Nat) :
    dropReturn (style.write line [closeBrace]) = style.write line [closeBrace] :=
  dropReturn_write style line [] rfl

/-! ## The other block is recognised -/

theorem opensOther_write (style : Style) (line : Nat) {lexemes : List Lexeme}
    (apart : Lexeme.Apart lexemes)
    (first : ∀ lexeme ∈ lexemes.head?, lexeme.kind ≠ .keyword .otherwise) :
    opensOther (style.write line lexemes) = false := by
  rw [opensOther, scanCode, style.scan_write line apart]
  cases lexemes with
  | nil => rfl
  | cons lexeme rest =>
      have kind := first lexeme rfl
      by_cases comment : lexeme.kind = .comment
      · simp [Lexeme.tokens, codeTokens, comment]
      · simp [Lexeme.tokens, codeTokens, comment, kind]

theorem scanCode_nil : scanCode [] = [] := by
  simp [scanCode, scan, scanOnto, codeTokens]

theorem opensOther_nil : opensOther [] = false := by
  simp [opensOther, scanCode_nil]

theorem otherwise_apart : Lexeme.Apart [keyword .otherwise, openBrace.spaced] :=
  ⟨keyword_ends _ (stops_spaced rfl _ _), (openBrace_ends _).spaced, trivial⟩

theorem opensOther_line (style : Style) (line : Nat) :
    opensOther (style.write line [keyword .otherwise, openBrace.spaced]) = true := by
  rw [opensOther, scanCode, style.scan_write line otherwise_apart]
  rfl

theorem opensOther_rest :
    opensOther (Lexeme.write [(keyword .otherwise).spaced, openBrace.spaced]) = true := by
  decide +kernel

/-! ## Lines of a tree -/

section

variable {source : Source} {style : Style} {line : Nat}

theorem line_plain {stmt : Plain} (h : source.Holds line [style.write line stmt.lexemes]) :
    source.line line = style.write line stmt.received.lexemes := by
  rw [h.1, dropReturn_plain]

theorem line_head {head : Head} {rest : List Line}
    (h : source.Holds line (style.write line head.lexemes :: rest)) :
    source.line line = style.write line head.lexemes := by
  rw [h.1, dropReturn_head]

theorem line_close {rest : List Line}
    (h : source.Holds line (style.write line [closeBrace] :: rest)) :
    source.line line = style.write line [closeBrace] := by
  rw [h.1, dropReturn_close]

theorem line_otherwise {rest : List Line}
    (h : source.Holds line (style.write line [keyword .otherwise, openBrace.spaced] :: rest)) :
    source.line line = style.write line [keyword .otherwise, openBrace.spaced] := by
  rw [h.1]
  exact dropReturn_write style line [_] rfl

theorem line_close_otherwise {rest : List Line}
    (h : source.Holds line
      (style.write line [closeBrace, (keyword .otherwise).spaced, openBrace.spaced] :: rest)) :
    source.line line =
      style.write line [closeBrace, (keyword .otherwise).spaced, openBrace.spaced] := by
  rw [h.1]
  exact dropReturn_write style line [_, _] rfl

/-- The line that ends a block puts its brace on the stack. -/
theorem waiting_end (h : source.Holds line [style.write line [closeBrace]]) :
    source.waiting line = style.close line :: source.waiting (line + 1) := by
  rw [waiting_close (line_close h) rfl]
  rfl

/-- The lines between two blocks take the brace that ends the second and put on the stack the one
that ends the first. -/
theorem waiting_between (h : source.Holds line (style.between line)) :
    source.waiting line =
      style.close line :: (source.waiting (line + (style.between line).length)).drop 1 := by
  unfold Style.between at h ⊢
  split at h
  · next split =>
    rw [if_pos split, waiting_close (line_close h) rfl, waiting_of_closed (line_otherwise h.2) rfl]
    rfl
  · next split =>
    rw [if_neg split, waiting_close (line_close_otherwise h) (by rw [unmatched_otherwise]),
      leftOpen, unmatched_otherwise]
    rfl

/-- Where the other block is looked for behind a line that begins with a closing brace. -/
theorem otherHeader?_close {rest : List Lexeme}
    (h : source.line line = style.write line (closeBrace :: rest)) (limit : Nat) :
    (Layout.ofSource source).otherHeader? (style.close line) limit =
      if opensOther (Lexeme.write rest) then some (line, (style.close line).col + 1)
      else if (scanCode (Lexeme.write rest)).isEmpty ∧ line + 1 < limit ∧
          opensOther (source.line (line + 1)) then
        some (line + 1, 0)
      else none := by
  rw [← textAfter_close h]
  rfl

/-- The other block is found behind the lines between the blocks. -/
theorem otherBlock?_between (h : source.Holds line (style.between line)) {stop : Spot}
    {below : List Spot} {limit : Nat}
    (top : source.waiting (line + (style.between line).length) = stop :: below)
    (inside : stop.line < limit) :
    ∃ other, other + 1 = line + (style.between line).length ∧
      (Layout.ofSource source).otherBlock? (style.close line) limit = some (other, stop) := by
  have later := (Source.le_line_of_mem_waiting (top ▸ List.mem_cons_self)).1
  unfold Style.between at h later top ⊢
  split at h
  · next split =>
    rw [if_pos split] at later top ⊢
    have opener := line_otherwise h.2
    have header : (Layout.ofSource source).otherHeader? (style.close line) limit =
        some (line + 1, 0) := by
      rw [otherHeader?_close (line_close h), Lexeme.write, opensOther_nil, scanCode_nil,
        if_neg (by decide), opener, opensOther_line, if_pos]
      refine ⟨rfl, ?_, rfl⟩
      simp only [List.length_cons, List.length_nil] at later
      omega
    have opened : leftOpen ((source.line (line + 1)).drop 0) = 1 := by
      rw [List.drop_zero, opener, leftOpen, style.unmatched_write]
      rfl
    refine ⟨line + 1, rfl, ?_⟩
    rw [Layout.otherBlock?_eq, header]
    exact congrArg (Option.map _) (closeOf_top opened top inside)
  · next split =>
    rw [if_neg split] at top ⊢
    have closes := line_close_otherwise h
    have header : (Layout.ofSource source).otherHeader? (style.close line) limit =
        some (line, (style.close line).col + 1) := by
      rw [otherHeader?_close closes, if_pos opensOther_rest]
    have opened : leftOpen ((source.line line).drop ((style.close line).col + 1)) = 1 := by
      change leftOpen (source.textAfter (style.close line)) = 1
      rw [textAfter_close closes, leftOpen, unmatched_otherwise]
    refine ⟨line, rfl, ?_⟩
    rw [Layout.otherBlock?_eq, header]
    exact congrArg (Option.map _) (closeOf_top opened top inside)

end

/-! The line behind a tree. -/

theorem length_block (style : Style) (line : Nat) (head : Head) (body : List Tree) :
    line + ((Tree.block head body).lines style line).length =
      line + 1 + (Tree.allLines style (line + 1) body).length + 1 := by
  rw [Tree.lines]
  simp only [List.length_cons, List.length_append, List.length_nil]
  omega

theorem length_choice (style : Style) (line : Nat) (check : Check) (body other : List Tree)
    {close first : Nat} (closes : line + 1 + (Tree.allLines style (line + 1) body).length = close)
    (opens : close + (style.between close).length = first) :
    line + ((Tree.choice check body other).lines style line).length =
      first + (Tree.allLines style first other).length + 1 := by
  subst closes opens
  rw [Tree.lines]
  simp only [List.length_cons, List.length_append, List.length_nil]
  omega

theorem length_lines_pos (style : Style) (line : Nat) (tree : Tree) :
    0 < (tree.lines style line).length := by
  cases tree <;> simp [Tree.lines]

mutual

/-- A tree leaves the stack as it is. -/
theorem waiting_tree {source : Source} {style : Style} {line : Nat} (tree : Tree)
    (h : source.Holds line (tree.lines style line)) :
    source.waiting line = source.waiting (line + (tree.lines style line).length) := by
  match tree with
  | .plain stmt =>
      rw [Tree.lines] at h ⊢
      exact waiting_plain (line_plain h)
  | .block head body =>
      rw [length_block]
      rw [Tree.lines] at h
      obtain ⟨inside, last⟩ := Source.holds_append.mp h.2
      rw [waiting_head (line_head h), waiting_trees body inside, waiting_end last]
      rfl
  | .choice check body other =>
      rw [length_choice style line check body other rfl rfl]
      rw [Tree.lines] at h
      obtain ⟨inside, rest⟩ := Source.holds_append.mp h.2
      obtain ⟨between, rest⟩ := Source.holds_append.mp rest
      obtain ⟨second, last⟩ := Source.holds_append.mp rest
      have head : source.line line = style.write line (Head.branch check).lexemes := line_head h
      rw [waiting_head head, waiting_trees body inside, waiting_between between,
        waiting_trees other second, waiting_end last]
      rfl

/-- Consecutive trees leave the stack as it is. -/
theorem waiting_trees {source : Source} {style : Style} {line : Nat} (trees : List Tree)
    (h : source.Holds line (Tree.allLines style line trees)) :
    source.waiting line = source.waiting (line + (Tree.allLines style line trees).length) := by
  match trees with
  | [] => rfl
  | tree :: rest =>
      rw [Tree.allLines] at h ⊢
      obtain ⟨first, behind⟩ := Source.holds_append.mp h
      rw [waiting_tree tree first, waiting_trees rest behind, List.length_append, Nat.add_assoc]

end

/-! ## Statements of a tree -/

section

variable {source : Source} {style : Style} {line limit : Nat}

/-- No statement begins with a line that opens the other block of a choice. -/
theorem opensOther_tree {tree : Tree} (h : source.Holds line (tree.lines style line)) :
    opensOther (source.line line) = false := by
  match tree with
  | .plain stmt =>
      rw [Tree.lines] at h
      rw [line_plain h]
      refine opensOther_write style line stmt.received.apart ?_
      intro lexeme first
      cases stmt <;> cases first <;> simp [keyword, Remark.lexeme, Name.lexeme]
  | .block head body =>
      rw [Tree.lines] at h
      rw [line_head h]
      refine opensOther_write style line head.apart ?_
      intro lexeme first
      cases head <;> cases first <;> simp [keyword]
  | .choice check body other =>
      rw [Tree.lines] at h
      have head : source.line line = style.write line (Head.branch check).lexemes := line_head h
      rw [head]
      refine opensOther_write style line (Head.branch check).apart ?_
      intro lexeme first
      cases first
      simp [keyword]

/-- Nothing follows the brace that ends a statement. -/
theorem afterBlock_end (h : source.line line = style.write line [closeBrace]) (limit : Nat) :
    (Layout.ofSource source).afterBlock (style.close line) limit = (none, line + 1) := by
  have rest : scanCode ((Layout.ofSource source).source.textAfter (style.close line)) = [] := by
    refine (congrArg scanCode (textAfter_close h)).trans ?_
    rw [Lexeme.write, scanCode_nil]
  rw [Layout.afterBlock, rest]
  rfl

/-- No other block follows the brace that ends a statement, if none is opened on the next line. -/
theorem otherBlock?_end (h : source.line line = style.write line [closeBrace])
    (next : line + 1 < limit → opensOther (source.line (line + 1)) = false) :
    (Layout.ofSource source).otherBlock? (style.close line) limit = none := by
  have header : (Layout.ofSource source).otherHeader? (style.close line) limit = none := by
    rw [otherHeader?_close h, Lexeme.write, opensOther_nil, if_neg (by decide), if_neg]
    rintro ⟨-, inside, opens⟩
    rw [next inside] at opens
    cases opens
  rw [Layout.otherBlock?_eq, header]
  rfl

/-- Reading a head adds its statement, with the block of the lines up to its brace. -/
theorem readLine_block {head : Head} {close : Nat} {below : List Spot}
    (opens : source.line line = style.write line head.lexemes)
    (last : source.line close = style.write close [closeBrace])
    (top : source.waiting (line + 1) = style.close close :: below) (inside : close < limit)
    (next : close + 1 < limit → opensOther (source.line (close + 1)) = false) :
    (Layout.ofSource source).readLine line limit =
      ([head.stmt (UInt32.ofNatClamp line) (fun count => .clamped line (style.column line count))
        ((Layout.ofSource source).block (line + 1) close)], close + 1) := by
  have form : Form.ofLine line ((Layout.ofSource source).text line) = _ :=
    (congrArg (Form.ofLine line) opens).trans (ofLine_head style line head)
  have found := blockEnd?_head opens top inside
  have captured : (Layout.ofSource source).captured line limit (style.close close)
      (head.opener fun count => .clamped line (style.column line count)) =
      (head.stmt (UInt32.ofNatClamp line) (fun count => .clamped line (style.column line count))
        ((Layout.ofSource source).block (line + 1) close), style.close close) := by
    cases head with
    | loop guard bound => rfl
    | branch check =>
        dsimp only [Head.opener, Layout.captured]
        rw [otherBlock?_end last next]
        rfl
  rw [Layout.readLine_captured form found, captured]
  dsimp only
  rw [afterBlock_end last]
  rfl

/-- Reading the head of a choice adds it with both of its blocks. -/
theorem readLine_choice {check : Check} {close stop : Nat} {below rest : List Spot}
    (opens : source.line line = style.write line check.lexemes)
    (top : source.waiting (line + 1) = style.close close :: rest)
    (between : source.Holds close (style.between close))
    (second : source.waiting (close + (style.between close).length) = style.close stop :: below)
    (last : source.line stop = style.write stop [closeBrace]) (inside : stop < limit) :
    (Layout.ofSource source).readLine line limit =
      ([.choice (UInt32.ofNatClamp line)
        (check.test fun count => .clamped line (style.column line count))
        ((Layout.ofSource source).block (line + 1) close)
        ((Layout.ofSource source).block (close + (style.between close).length) stop)],
        stop + 1) := by
  have head : source.line line = style.write line (Head.branch check).lexemes := opens
  have form : Form.ofLine line ((Layout.ofSource source).text line) = _ :=
    (congrArg (Form.ofLine line) head).trans (ofLine_head style line (.branch check))
  have later : close + (style.between close).length ≤ stop :=
    (Source.le_line_of_mem_waiting (second ▸ List.mem_cons_self)).1
  have found : (Layout.ofSource source).blockEnd? line limit = some (style.close close) := by
    refine blockEnd?_head head top ?_
    exact Nat.lt_of_le_of_lt (Nat.le_trans (Nat.le_add_right _ _) later) inside
  obtain ⟨otherLine, behind, other⟩ := otherBlock?_between between second inside
  have captured : (Layout.ofSource source).captured line limit (style.close close)
      ((Head.branch check).opener fun count => .clamped line (style.column line count)) =
      (.choice (UInt32.ofNatClamp line)
        (check.test fun count => .clamped line (style.column line count))
        ((Layout.ofSource source).block (line + 1) close)
        ((Layout.ofSource source).block (close + (style.between close).length) stop),
        style.close stop) := by
    rw [← behind]
    dsimp only [Head.opener, Layout.captured]
    rw [other]
    rfl
  rw [Layout.readLine_captured form found, captured]
  dsimp only
  rw [afterBlock_end last]
  rfl

end

mutual

/-- Reading the lines of a tree adds its statement and goes on behind them. -/
theorem readLine_tree {source : Source} {style : Style} {line limit : Nat} (tree : Tree)
    (h : source.Holds line (tree.lines style line))
    (inside : line + (tree.lines style line).length ≤ limit)
    (next : line + (tree.lines style line).length < limit →
      opensOther (source.line (line + (tree.lines style line).length)) = false) :
    (Layout.ofSource source).readLine line limit =
      ([tree.stmt style .clamped line], line + (tree.lines style line).length) := by
  match tree with
  | .plain stmt =>
      rw [Tree.lines] at h ⊢
      have form : Form.ofLine line ((Layout.ofSource source).text line) = _ :=
        (congrArg (Form.ofLine line) (line_plain h)).trans (ofLine_plain style line stmt.received)
      rw [Layout.readLine_action form, Plain.action_received]
      rfl
  | .block head body =>
      rw [length_block] at inside next ⊢
      rw [Tree.lines] at h
      obtain ⟨bodyHolds, last⟩ := Source.holds_append.mp h.2
      have statements := block_trees body bodyHolds
      have top := (waiting_trees body bodyHolds).trans (waiting_end last)
      rw [readLine_block (line_head h) (line_close last) top inside next, statements, Tree.stmt]
      rfl
  | .choice check body other =>
      rw [length_choice style line check body other rfl rfl] at inside next ⊢
      rw [Tree.lines] at h
      obtain ⟨bodyHolds, rest⟩ := Source.holds_append.mp h.2
      obtain ⟨between, rest⟩ := Source.holds_append.mp rest
      obtain ⟨otherHolds, last⟩ := Source.holds_append.mp rest
      have statements := block_trees body bodyHolds
      have others := block_trees other otherHolds
      have second := (waiting_trees other otherHolds).trans (waiting_end last)
      have top := (waiting_trees body bodyHolds).trans (waiting_between between)
      have head : source.line line = style.write line (Head.branch check).lexemes := line_head h
      rw [readLine_choice head top between second (line_close last) inside, statements, others,
        Tree.stmt]
      rfl

/-- The block of the lines of consecutive trees are their statements. -/
theorem block_trees {source : Source} {style : Style} {line : Nat} (trees : List Tree)
    (h : source.Holds line (Tree.allLines style line trees)) :
    (Layout.ofSource source).block line (line + (Tree.allLines style line trees).length) =
      Tree.stmts style .clamped line trees := by
  match trees with
  | [] => exact Layout.block_of_le (Nat.le_refl line)
  | tree :: rest =>
      rw [Tree.allLines] at h ⊢
      obtain ⟨first, behind⟩ := Source.holds_append.mp h
      rw [List.length_append, ← Nat.add_assoc]
      have nonempty := length_lines_pos style line tree
      have next : line + (tree.lines style line).length < line + (tree.lines style line).length +
          (Tree.allLines style (line + (tree.lines style line).length) rest).length →
          opensOther (source.line (line + (tree.lines style line).length)) = false := by
        intro more
        -- The line behind the tree, if the range goes on, is the first line of the next tree.
        cases rest with
        | nil => simp [Tree.allLines] at more
        | cons second rest =>
            rw [Tree.allLines] at behind
            exact opensOther_tree (Source.holds_append.mp behind).1
      rw [Layout.block_eq (by omega), readLine_tree tree first (by omega) next,
        block_trees rest behind, Tree.stmts]
      rfl

end

end Written

end LineScript
