import LineScript.Proofs.WrittenForm

/-!
# The braces of written lines

The braces inside a quotation are well nested and a comment has none, so the braces that a written
line leaves unmatched are those of its lexemes: the line of a head leaves one block open, the line
that ends a block closes one. That settles what each line does to the stack of waiting braces.
-/

namespace LineScript

theorem unmatched_append_of_level {left : Line} (level : unmatched left = (0, 0)) (right : Line) :
    unmatched (left ++ right) = unmatched right := by
  rw [unmatched_append, level]
  simp

/-- A well nested text leaves nothing unmatched. -/
theorem WellNested.unmatched {text : Line} (nested : WellNested text) :
    unmatched text = (0, 0) := by
  obtain ⟨count, inside, deep⟩ := exists_depthChange_take text
  have above := nested.2 count inside
  have level := nested.1
  rw [depthChange_eq] at level
  have closing : (LineScript.unmatched text).1 = 0 := by omega
  have opening : (LineScript.unmatched text).2 = 0 := by omega
  exact Prod.ext closing opening

/-- A text without braces leaves nothing unmatched. -/
theorem unmatched_of_free {text : Line} (free : ∀ c ∈ text, Brace.ofChar? c = none) :
    unmatched text = (0, 0) := by
  induction text with
  | nil => rfl
  | cons c rest ih =>
      rw [unmatched_cons, free c List.mem_cons_self]
      exact ih fun d mem => free d (List.mem_cons_of_mem c mem)

/-- Braces keep their columns behind a text without braces. -/
theorem pairText_append_of_free {left : Line} (free : ∀ c ∈ left, Brace.ofChar? c = none)
    (line col : Nat) (right : Line) (waiting : List Spot) :
    pairText line col (left ++ right) waiting =
      pairText line (col + left.length) right waiting := by
  induction left generalizing col with
  | nil => rfl
  | cons c rest ih =>
      rw [List.cons_append, pairText_cons, free c List.mem_cons_self]
      dsimp only
      rw [ih (fun d mem => free d (List.mem_cons_of_mem c mem)), List.length_cons]
      congr 1
      omega

/-- A text that closes no other text's block only takes braces from the stack. -/
theorem pairText_waiting_of_closed {text : Line} (closed : (unmatched text).1 = 0)
    (line col : Nat) (waiting : List Spot) :
    (pairText line col text waiting).2 = waiting.drop (leftOpen text) := by
  obtain ⟨own, count, -, stack⟩ := pairText_waiting line col text waiting
  rw [closed, List.length_eq_zero_iff] at count
  rw [stack, count, List.nil_append]

namespace Lexeme

/-- A lexeme does not change the nesting. -/
structure Level (lexeme : Lexeme) : Prop where
  gap : unmatched lexeme.gap = (0, 0)
  text : unmatched lexeme.text = (0, 0)

theorem Level.spaced {lexeme : Lexeme} (level : lexeme.Level) : lexeme.spaced.Level :=
  ⟨rfl, level.text⟩

theorem unmatched_write {lexemes : List Lexeme} (level : ∀ lexeme ∈ lexemes, lexeme.Level) :
    unmatched (write lexemes) = (0, 0) := by
  induction lexemes with
  | nil => rfl
  | cons lexeme rest ih =>
      have first := level lexeme List.mem_cons_self
      rw [write, List.append_assoc, unmatched_append_of_level first.gap,
        unmatched_append_of_level first.text]
      exact ih fun other mem => level other (List.mem_cons_of_mem lexeme mem)

end Lexeme

/-- The characters of a class without braces are not braces. -/
theorem ofChar?_eq_none {p : Char → Bool} (opening : p '\x7b' = false) (closing : p '\x7d' = false)
    {c : Char} (mem : p c = true) : Brace.ofChar? c = none := by
  unfold Brace.ofChar?
  split
  · next same =>
    rw [same, opening] at mem
    cases mem
  · split
    · next same =>
      rw [same, closing] at mem
      cases mem
    · rfl

namespace Written

/-! ## Lexemes without braces -/

theorem Style.free_indent (style : Style) (line : Nat) :
    ∀ c ∈ (style.indent line).chars, Brace.ofChar? c = none := by
  intro c mem
  rcases (style.indent line).blank c mem with rfl | rfl <;> rfl

theorem Name.isNameChar_of_mem (name : Name) {c : Char} (mem : c ∈ name.chars) :
    isNameChar c = true := by
  rcases List.mem_cons.mp mem with rfl | mem
  · have start := name.start
    simp only [isNameStart, Bool.or_eq_true] at start
    simp only [isNameChar, Char.isAlphanum, Bool.or_eq_true]
    rcases start with letter | score
    · exact .inl (.inl letter)
    · exact .inr score
  · exact name.rest c mem

/-- The lexemes that a line has besides the braces of its block. -/
inductive Part : Lexeme → Prop
  | name (name : Name) : Part name.lexeme
  | number (number : Number) : Part number.lexeme
  | quote (text : Quote) : Part text.lexeme
  | remark (text : Remark) : Part text.lexeme
  | keyword (word : Keyword) : Part (keyword word)
  | comparison (op : Comparison) : Part (comparison op)
  | equals : Part equals
  | plus : Part plus
  | semicolon : Part semicolon
  | spaced {lexeme : Lexeme} (part : Part lexeme) : Part lexeme.spaced

theorem Part.value (value : Value) : Part value.lexeme := by
  cases value with
  | number value => exact .number value
  | name value => exact .name value

theorem Part.level {lexeme : Lexeme} (part : Part lexeme) : lexeme.Level := by
  induction part with
  | name name =>
      exact ⟨rfl, unmatched_of_free fun c mem =>
        ofChar?_eq_none rfl rfl (name.isNameChar_of_mem mem)⟩
  | number number =>
      exact ⟨rfl, unmatched_of_free fun c mem =>
        ofChar?_eq_none rfl rfl (number.isDigit_of_mem mem)⟩
  | quote text =>
      refine ⟨rfl, ?_⟩
      have quotes : unmatched ['"'] = (0, 0) := rfl
      change unmatched (['"'] ++ text.chars ++ ['"']) = (0, 0)
      rw [List.append_assoc, unmatched_append_of_level quotes,
        unmatched_append_of_level text.nested.unmatched, quotes]
  | remark text =>
      refine ⟨rfl, unmatched_of_free fun c mem => ?_⟩
      rcases List.mem_cons.mp mem with rfl | mem
      · rfl
      · rcases List.mem_cons.mp mem with rfl | mem
        · rfl
        · simp [Brace.ofChar?, text.plain c mem]
  | keyword word => cases word <;> exact ⟨rfl, rfl⟩
  | comparison op => cases op <;> exact ⟨rfl, rfl⟩
  | equals => exact ⟨rfl, rfl⟩
  | plus => exact ⟨rfl, rfl⟩
  | semicolon => exact ⟨rfl, rfl⟩
  | spaced _ ih => exact ih.spaced

theorem Plain.parts (stmt : Plain) : ∀ lexeme ∈ stmt.lexemes, Part lexeme := by
  cases stmt with
  | blank => simp [lexemes]
  | remark text => simp [lexemes, Part.remark]
  | printText text => simp [lexemes, Part.keyword, Part.quote, Part.semicolon, Part.spaced]
  | printValue text value =>
      simp [lexemes, Part.keyword, Part.quote, Part.plus, Part.value, Part.semicolon, Part.spaced]
  | declare name value =>
      simp [lexemes, Part.keyword, Part.name, Part.equals, Part.value, Part.semicolon, Part.spaced]
  | assign dest lhs rhs =>
      simp [lexemes, Part.name, Part.equals, Part.plus, Part.value, Part.semicolon, Part.spaced]

/-- The last lexeme of a head opens the block. -/
theorem Head.parts (head : Head) :
    ∃ front, head.lexemes = front ++ [openBrace.spaced] ∧ ∀ lexeme ∈ front, Part lexeme := by
  cases head with
  | loop guard bound =>
      refine ⟨[keyword .loop, guard.lexeme.spaced, (comparison .lt).spaced, bound.lexeme.spaced],
        rfl, ?_⟩
      simp [Part.keyword, Part.name, Part.comparison, Part.number, Part.spaced]
  | branch check =>
      refine ⟨[keyword .branch, check.guard.lexeme.spaced, (comparison check.op).spaced,
        check.literal.lexeme.spaced], rfl, ?_⟩
      simp [Part.keyword, Part.name, Part.comparison, Part.number, Part.spaced]

/-! ## What lines leave unmatched -/

theorem Style.unmatched_write (style : Style) (line : Nat) (lexemes : List Lexeme) :
    unmatched (style.write line lexemes) = unmatched (Lexeme.write lexemes) := by
  rw [Style.write, unmatched_append_of_level (unmatched_of_free (style.free_indent line))]

theorem Head.unmatched (head : Head) : unmatched (Lexeme.write head.lexemes) = (0, 1) := by
  obtain ⟨front, same, parts⟩ := head.parts
  rw [same, Lexeme.write_append,
    unmatched_append_of_level (Lexeme.unmatched_write fun lexeme mem => (parts lexeme mem).level)]
  rfl

theorem unmatched_otherwise :
    unmatched (Lexeme.write [(keyword .otherwise).spaced, openBrace.spaced]) = (0, 1) := rfl

/-! ## What lines do to the stack -/

section

variable {source : Source} {style : Style} {line : Nat}

theorem waiting_of_closed {lexemes : List Lexeme}
    (h : source.line line = style.write line lexemes)
    (closed : (LineScript.unmatched (Lexeme.write lexemes)).1 = 0) :
    source.waiting line =
      (source.waiting (line + 1)).drop (leftOpen (Lexeme.write lexemes)) := by
  rw [← style.unmatched_write line] at closed
  rw [Source.waiting_eq, h, pairText_waiting_of_closed closed, leftOpen, leftOpen,
    style.unmatched_write]

/-- A statement of one line leaves the stack as it is. -/
theorem waiting_plain {stmt : Plain} (h : source.line line = style.write line stmt.lexemes) :
    source.waiting line = source.waiting (line + 1) := by
  have level : LineScript.unmatched (Lexeme.write stmt.lexemes) = (0, 0) :=
    Lexeme.unmatched_write fun lexeme mem => (stmt.parts lexeme mem).level
  rw [waiting_of_closed h (by rw [level]), leftOpen, level, List.drop_zero]

/-- The line of a head takes the brace that ends its block. -/
theorem waiting_head {head : Head} (h : source.line line = style.write line head.lexemes) :
    source.waiting line = (source.waiting (line + 1)).drop 1 := by
  rw [waiting_of_closed h (by rw [head.unmatched]), leftOpen, head.unmatched]

/-- Where the brace stands that a line begins with. -/
def Style.close (style : Style) (line : Nat) : Spot :=
  ⟨line, (style.indent line).chars.length⟩

/-- A line that begins with a closing brace puts it on the stack, after what stands behind the
brace has taken its own. -/
theorem waiting_close {rest : List Lexeme}
    (h : source.line line = style.write line (closeBrace :: rest))
    (closed : (LineScript.unmatched (Lexeme.write rest)).1 = 0) :
    source.waiting line =
      style.close line :: (source.waiting (line + 1)).drop (leftOpen (Lexeme.write rest)) := by
  have brace : Lexeme.write (closeBrace :: rest) = '\x7d' :: Lexeme.write rest := rfl
  rw [Source.waiting_eq, h, Style.write, pairText_append_of_free (style.free_indent line), brace,
    pairText_cons]
  change _ :: (pairText _ _ _ _).2 = _
  rw [pairText_waiting_of_closed closed, Nat.zero_add, Style.close]

/-- What stands behind the brace that a line begins with. -/
theorem textAfter_close {rest : List Lexeme}
    (h : source.line line = style.write line (closeBrace :: rest)) :
    source.textAfter (style.close line) = Lexeme.write rest := by
  have brace : Lexeme.write (closeBrace :: rest) = ['\x7d'] ++ Lexeme.write rest := rfl
  rw [Source.textAfter]
  change (source.line line).drop ((style.indent line).chars.length + 1) = _
  rw [h, Style.write, brace, ← List.append_assoc, List.drop_left']
  simp

/-- A text that leaves one block open is ended by the top of the stack. -/
theorem closeOf_top {fromCol limit : Nat} {close : Spot} {below : List Spot}
    (opened : leftOpen ((source.line line).drop fromCol) = 1)
    (top : source.waiting (line + 1) = close :: below) (inside : close.line < limit) :
    source.pairing.closeOf line fromCol limit = some close := by
  rw [Source.closeOf_pairing, opened, top]
  simp [inside]

theorem blockEnd?_head {head : Head} (h : source.line line = style.write line head.lexemes)
    {limit : Nat} {close : Spot} {below : List Spot}
    (top : source.waiting (line + 1) = close :: below) (inside : close.line < limit) :
    (Layout.ofSource source).blockEnd? line limit = some close := by
  have left : LineScript.unmatched (source.line line) = (0, 1) := by
    rw [h, style.unmatched_write, head.unmatched]
  have deeper : 0 < depthChange (source.line line) := by
    rw [depthChange_eq, left]
    decide
  change (if 0 < depthChange (source.line line) then source.pairing.closeOf line 0 limit
    else none) = some close
  rw [if_pos deeper]
  refine closeOf_top ?_ top inside
  rw [List.drop_zero, leftOpen, left]

end

end Written

end LineScript
