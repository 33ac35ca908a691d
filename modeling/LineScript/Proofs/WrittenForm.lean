import Mathlib.Data.List.TakeWhile
import LineScript.Stmt.Block
import LineScript.Proofs.Written
import LineScript.Proofs.Recognised

/-!
# The form of a written line

Every lexeme that is written ends where it was written to end, so a written line has exactly its
lexemes as tokens, and `Form.ofLine` finds the statement or the opener that was meant. The columns
that are read are those in which the lexemes were written.
-/

namespace LineScript

namespace Written

/-! ## Lexemes end -/

theorem Name.ends (name : Name) {rest : List Char} (stops : Stops isNameChar rest) :
    name.lexeme.Ends rest := by
  have kind : wordKind (name.first :: name.more) = .name := by
    rw [wordKind, name.free]
  have ends : Lexeme.Ends ⟨[], wordKind (name.first :: name.more), name.chars⟩ rest :=
    Lexeme.ends_word (by simp) name.start name.rest stops
  rw [kind] at ends
  exact ends

theorem Number.digits_ne_nil (number : Number) : number.digits ≠ [] :=
  Nat.toDigits_ne_nil

theorem Number.isDigit_of_mem (number : Number) {c : Char} (mem : c ∈ number.digits) :
    c.isDigit = true :=
  Nat.isDigit_of_mem_toDigits (by decide) (by decide) mem

theorem Number.ends (number : Number) {rest : List Char} (stops : Stops isNameChar rest) :
    number.lexeme.Ends rest :=
  Lexeme.ends_integer (by simp) number.digits_ne_nil (fun _ => number.isDigit_of_mem)
    (stops_digits stops)

theorem Value.ends (value : Value) {rest : List Char} (stops : Stops isNameChar rest) :
    value.lexeme.Ends rest := by
  cases value with
  | number value => exact value.ends stops
  | name value => exact value.ends stops

theorem Quote.ends (text : Quote) (rest : List Char) : text.lexeme.Ends rest :=
  Lexeme.ends_quoted (by simp) text.plain rest

theorem Remark.ends (text : Remark) : text.lexeme.Ends [] :=
  Lexeme.ends_comment (by simp) (fun c mem => (text.plain c mem).2.2) (stops_nil _)

theorem keyword_ends (word : Keyword) {rest : List Char} (stops : Stops isNameChar rest) :
    (keyword word).Ends rest := by
  obtain ⟨c, more, spelling, start, all, kind⟩ := word.exists_spelling
  have ends : Lexeme.Ends ⟨[], wordKind (c :: more), c :: more⟩ rest :=
    Lexeme.ends_word (by simp) start all stops
  rw [kind, ← spelling] at ends
  exact ends

theorem semicolon_ends (rest : List Char) : semicolon.Ends rest :=
  ⟨by simp [semicolon], ';', [], rfl, rfl, rfl⟩

theorem plus_ends (rest : List Char) : plus.Ends rest :=
  ⟨by simp [plus], '+', [], rfl, rfl, rfl⟩

theorem openBrace_ends (rest : List Char) : openBrace.Ends rest :=
  ⟨by simp [openBrace], '\x7b', [], rfl, rfl, rfl⟩

/-- A space stops everything. -/
theorem stops_spaced {p : Char → Bool} (space : p ' ' = false) (lexeme : Lexeme)
    (rest : List Lexeme) : Stops p (Lexeme.write (lexeme.spaced :: rest)) := by
  intro c next
  simp [Lexeme.write, Lexeme.spaced] at next
  exact next ▸ space

theorem stops_semicolon : Stops isNameChar (Lexeme.write [semicolon]) := by
  intro c next
  cases next
  rfl

theorem Plain.apart (stmt : Plain) : Lexeme.Apart stmt.lexemes := by
  cases stmt with
  | blank => trivial
  | remark text => exact ⟨text.ends, trivial⟩
  | printText text =>
      exact ⟨keyword_ends _ (stops_spaced rfl _ _), (text.ends _).spaced, semicolon_ends _, trivial⟩
  | printValue text value =>
      exact ⟨keyword_ends _ (stops_spaced rfl _ _), (text.ends _).spaced, (plus_ends _).spaced,
        (value.ends stops_semicolon).spaced, semicolon_ends _, trivial⟩
  | declare name value =>
      exact ⟨keyword_ends _ (stops_spaced rfl _ _), (name.ends (stops_spaced rfl _ _)).spaced,
        (Lexeme.ends_equals (by simp) (stops_spaced rfl _ _)).spaced,
        (value.ends stops_semicolon).spaced, semicolon_ends _, trivial⟩
  | assign dest lhs rhs =>
      exact ⟨dest.ends (stops_spaced rfl _ _),
        (Lexeme.ends_equals (by simp) (stops_spaced rfl _ _)).spaced,
        (lhs.ends (stops_spaced rfl _ _)).spaced, (plus_ends _).spaced,
        (rhs.ends stops_semicolon).spaced, semicolon_ends _, trivial⟩

theorem Head.apart (head : Head) : Lexeme.Apart head.lexemes := by
  cases head with
  | loop guard bound =>
      exact ⟨keyword_ends _ (stops_spaced rfl _ _), (guard.ends (stops_spaced rfl _ _)).spaced,
        (Lexeme.ends_comparison (by simp) _ (stops_spaced rfl _ _)).spaced,
        (bound.ends (stops_spaced rfl _ _)).spaced, (openBrace_ends _).spaced, trivial⟩
  | branch check =>
      exact ⟨keyword_ends _ (stops_spaced rfl _ _),
        (check.guard.ends (stops_spaced rfl _ _)).spaced,
        (Lexeme.ends_comparison (by simp) _ (stops_spaced rfl _ _)).spaced,
        (check.literal.ends (stops_spaced rfl _ _)).spaced, (openBrace_ends _).spaced, trivial⟩

/-! ## Lines have their form -/

theorem Number.digitsValue_digits (number : Number) : digitsValue number.digits = number.value := by
  have value := Nat.ofDigitChars_ten_toDigits (n := number.value)
  rw [Nat.ofDigitChars_eq_foldl] at value
  exact value

theorem Number.integer (number : Number) (line col : Nat) :
    Token.integer ⟨.integer, number.digits, col⟩ line = .ok number.int64 := by
  refine (Token.integer_ok_iff _ line _).mpr ?_
  rw [number.toInt_int64, number.digitsValue_digits]

theorem Value.operand_token (value : Value) (line col : Nat) :
    Token.operand ⟨value.lexeme.kind, value.lexeme.text, col⟩ line =
      .ok (value.operand (.clamped line col)) := by
  cases value with
  | number value => simp [Token.operand, lexeme, Number.lexeme, value.integer, operand, Token.pos,
      Except.map]
  | name value => simp [Token.operand, lexeme, Name.lexeme, operand, Token.varRef, Token.pos,
      Token.word, Name.varRef]

theorem Value.isValue (value : Value) : value.lexeme.kind.isValue = true := by
  cases value <;> rfl

theorem Style.blank_indent (style : Style) (line : Nat) :
    ∀ c ∈ (style.indent line).chars, isGap c = true := by
  intro c mem
  rcases (style.indent line).blank c mem with rfl | rfl <;> rfl

theorem Style.scan_write (style : Style) (line : Nat) {lexemes : List Lexeme}
    (apart : Lexeme.Apart lexemes) :
    scan (style.write line lexemes) =
      Lexeme.tokens (style.indent line).chars.length lexemes :=
  LineScript.scan_write (style.blank_indent line) apart

/-- A line whose lexemes are all code is recognised by their tokens. -/
theorem ofLine_code (style : Style) (line : Nat) {lexemes : List Lexeme}
    (apart : Lexeme.Apart lexemes) (nonempty : lexemes ≠ [])
    (code : ∀ lexeme ∈ lexemes, lexeme.kind ≠ .comment) :
    Form.ofLine line (style.write line lexemes) =
      Form.ofCode line (style.write line lexemes)
        (Lexeme.tokens (style.indent line).chars.length lexemes) := by
  have all : lexemes.takeWhile (fun lexeme => lexeme.kind ≠ .comment) = lexemes :=
    List.takeWhile_eq_self_iff.mpr fun lexeme mem => decide_eq_true (code lexeme mem)
  have whole := Lexeme.codeTokens_tokens (style.indent line).chars.length lexemes
  rw [all] at whole
  cases lexemes with
  | nil => exact (nonempty rfl).elim
  | cons lexeme rest =>
      rw [Form.ofLine, style.scan_write line apart]
      rw [Lexeme.tokens] at whole ⊢
      dsimp only
      rw [if_neg (code lexeme List.mem_cons_self), whole]

theorem Value.not_comment (value : Value) : value.lexeme.kind ≠ .comment := by
  cases value <;> exact TokenKind.noConfusion

/-! The recognised forms, whatever the columns are. -/

section

variable (line : Nat) (text : Line) (a b c d e f : Nat)

theorem ofCode_printText (quote : Quote) :
    Form.ofCode line text [⟨.keyword .print, Keyword.print.spelling.toList, a⟩,
      ⟨.quoted, '"' :: quote.chars ++ ['"'], b⟩, ⟨.semicolon, [';'], c⟩] =
      .action (.printText (String.ofList quote.chars)) := by
  refine (Recognised.printText rfl rfl rfl).ofCode text |>.trans ?_
  simp [Token.contents]

theorem ofCode_printValue (quote : Quote) (value : Value) :
    Form.ofCode line text [⟨.keyword .print, Keyword.print.spelling.toList, a⟩,
      ⟨.quoted, '"' :: quote.chars ++ ['"'], b⟩, ⟨.plus, ['+'], c⟩,
      ⟨value.lexeme.kind, value.lexeme.text, d⟩, ⟨.semicolon, [';'], e⟩] =
      .action (.printValue (String.ofList quote.chars) (value.operand (.clamped line d))) := by
  refine (Recognised.printValue rfl rfl rfl value.isValue rfl).ofCode text |>.trans ?_
  rw [value.operand_token]
  simp [Token.contents, Form.ofAction, Except.map]

theorem ofCode_declare (name : Name) (value : Value) :
    Form.ofCode line text [⟨.keyword .declare, Keyword.declare.spelling.toList, a⟩,
      ⟨.name, name.chars, b⟩, ⟨.equals, ['='], c⟩,
      ⟨value.lexeme.kind, value.lexeme.text, d⟩, ⟨.semicolon, [';'], e⟩] =
      .action (.declare (String.ofList name.chars) (value.operand (.clamped line d))) := by
  refine (Recognised.declare rfl rfl rfl value.isValue rfl).ofCode text |>.trans ?_
  rw [value.operand_token]
  rfl

theorem ofCode_assign (dest : Name) (lhs rhs : Value) :
    Form.ofCode line text [⟨.name, dest.chars, a⟩, ⟨.equals, ['='], b⟩,
      ⟨lhs.lexeme.kind, lhs.lexeme.text, c⟩, ⟨.plus, ['+'], d⟩,
      ⟨rhs.lexeme.kind, rhs.lexeme.text, e⟩, ⟨.semicolon, [';'], f⟩] =
      .action (.assign (dest.varRef (.clamped line a)) (lhs.operand (.clamped line c))
        (rhs.operand (.clamped line e))) := by
  refine (Recognised.assign rfl rfl lhs.isValue rfl rhs.isValue rfl).ofCode text |>.trans ?_
  rw [lhs.operand_token, rhs.operand_token]
  rfl

theorem ofCode_loop (guard : Name) (bound : Number) :
    Form.ofCode line text [⟨.keyword .loop, Keyword.loop.spelling.toList, a⟩,
      ⟨.name, guard.chars, b⟩, ⟨.comparison .lt, Comparison.lt.spelling.toList, c⟩,
      ⟨.integer, bound.digits, d⟩, ⟨.openBrace, ['\x7b'], e⟩] =
      .opener (.loop (guard.varRef (.clamped line b)) bound.int64) := by
  refine (Recognised.loop rfl rfl rfl rfl rfl).ofCode text |>.trans ?_
  rw [bound.integer]
  rfl

theorem ofCode_branch (guard : Name) (op : Comparison) (literal : Number) :
    Form.ofCode line text [⟨.keyword .branch, Keyword.branch.spelling.toList, a⟩,
      ⟨.name, guard.chars, b⟩, ⟨.comparison op, op.spelling.toList, c⟩,
      ⟨.integer, literal.digits, d⟩, ⟨.openBrace, ['\x7b'], e⟩] =
      .opener (.branch ⟨guard.varRef (.clamped line b), op, literal.int64⟩) := by
  refine (Recognised.branch rfl rfl rfl rfl rfl).ofCode text |>.trans ?_
  rw [literal.integer]
  rfl

end

/-- A statement of one line is read back. -/
theorem ofLine_plain (style : Style) (line : Nat) (stmt : Plain) :
    Form.ofLine line (style.write line stmt.lexemes) =
      .action (stmt.action fun count => .clamped line (style.column line count)) := by
  cases stmt with
  | blank =>
      rw [Form.ofLine, style.scan_write line Plain.blank.apart]
      rfl
  | remark text =>
      rw [Form.ofLine, style.scan_write line (Plain.remark text).apart]
      rfl
  | printText text =>
      rw [ofLine_code style line (Plain.printText text).apart (by simp [Plain.lexemes])
        (by simp [Plain.lexemes, Lexeme.spaced, keyword, Quote.lexeme, semicolon])]
      exact ofCode_printText _ _ _ _ _ text
  | printValue text value =>
      rw [ofLine_code style line (Plain.printValue text value).apart (by simp [Plain.lexemes])
        (by simp [Plain.lexemes, Lexeme.spaced, keyword, Quote.lexeme, plus, semicolon,
          value.not_comment])]
      refine (ofCode_printValue _ _ _ _ _ _ _ text value).trans ?_
      have word : Keyword.print.spelling.toList.length = 5 := rfl
      have fixed : "print \"\" + ".length = 11 := rfl
      rw [Plain.action, Style.column, fixed]
      congr 4
      simp only [word, List.length_cons, List.length_nil, List.length_append, Quote.lexeme,
        Lexeme.spaced, plus, keyword]
      omega
  | declare name value =>
      rw [ofLine_code style line (Plain.declare name value).apart (by simp [Plain.lexemes])
        (by simp [Plain.lexemes, Lexeme.spaced, keyword, Name.lexeme, equals, semicolon,
          value.not_comment])]
      refine (ofCode_declare _ _ _ _ _ _ _ name value).trans ?_
      have word : Keyword.declare.spelling.toList.length = 3 := rfl
      have fixed : "var  = ".length = 7 := rfl
      rw [Plain.action, Style.column, fixed]
      congr 4
      simp only [word, List.length_cons, List.length_nil, Name.lexeme, Lexeme.spaced, equals,
        keyword]
      omega
  | assign dest lhs rhs =>
      rw [ofLine_code style line (Plain.assign dest lhs rhs).apart (by simp [Plain.lexemes])
        (by simp [Plain.lexemes, Lexeme.spaced, Name.lexeme, equals, plus, semicolon,
          lhs.not_comment, rhs.not_comment])]
      refine (ofCode_assign _ _ _ _ _ _ _ _ dest lhs rhs).trans ?_
      have first : " = ".length = 3 := rfl
      have second : " =  + ".length = 6 := rfl
      have left : lhs.lexeme.text.length = lhs.chars.length := by cases lhs <;> rfl
      rw [Plain.action, Style.column, Style.column, Style.column, first, second]
      congr 4
      · simp only [List.length_cons, List.length_nil, Name.lexeme, Lexeme.spaced, equals]
        omega
      · simp only [left, List.length_cons, List.length_nil, Name.lexeme, Lexeme.spaced, equals,
          plus]
        omega

/-- The line of a head is read back. -/
theorem ofLine_head (style : Style) (line : Nat) (head : Head) :
    Form.ofLine line (style.write line head.lexemes) =
      .opener (head.opener fun count => .clamped line (style.column line count)) := by
  cases head with
  | loop guard bound =>
      rw [ofLine_code style line (Head.loop guard bound).apart (by simp [Head.lexemes])
        (by simp [Head.lexemes, Lexeme.spaced, keyword, Name.lexeme, Number.lexeme, comparison,
          openBrace])]
      refine (ofCode_loop _ _ _ _ _ _ _ guard bound).trans ?_
      have fixed : "while ".length = 6 := rfl
      rw [Head.opener, Style.column, fixed]
      rfl
  | branch check =>
      rw [ofLine_code style line (Head.branch check).apart (by simp [Head.lexemes, Check.lexemes])
        (by simp [Head.lexemes, Check.lexemes, Lexeme.spaced, keyword, Name.lexeme, Number.lexeme,
          comparison, openBrace])]
      refine (ofCode_branch _ _ _ _ _ _ _ check.guard check.op check.literal).trans ?_
      have fixed : "if ".length = 3 := rfl
      rw [Head.opener, Check.test, Style.column, fixed]
      rfl

end Written

end LineScript
