import LineScript.Stmt.Form
import LineScript.Proofs.Waiting
import LineScript.Proofs.Lexeme

/-!
# Written programs

A program before it is written: a list of trees whose names, numbers and texts are known to have a
written form. `Written.Style` holds what writing is free to choose, the indentation of each line
and whether the other block of a choice is opened on the line that ends the first one. Then
`Tree.allLines` writes the trees, one statement to a line.

`Tree.stmts` is what the lines should be read as. It takes the positions from a function of the
line and the column, and the columns from the lengths of what is written in front: an operand
stands where its first character stands.
-/

namespace LineScript

/-- Every closing brace of a text closes an opening brace of the text, and none is left open. -/
def WellNested (text : Line) : Prop :=
  depthChange text = 0 ∧ ∀ count ≤ text.length, 0 ≤ depthChange (text.take count)

instance (text : Line) : Decidable (WellNested text) :=
  inferInstanceAs (Decidable (_ ∧ _))

namespace Written

/-- A name that is not a reserved word. -/
structure Name where
  first : Char
  more : List Char
  start : isNameStart first = true
  rest : ∀ c ∈ more, isNameChar c = true
  free : Keyword.ofChars? (first :: more) = none

/-- An integer that a program can hold. -/
structure Number where
  value : Nat
  small : value ≤ maxInteger

/-- A text that can be quoted on one line without disturbing the braces around it. -/
structure Quote where
  chars : List Char
  plain : ∀ c ∈ chars, c ≠ '"' ∧ c ≠ '\n'
  nested : WellNested chars

/-- The text of a comment. -/
structure Remark where
  chars : List Char
  plain : ∀ c ∈ chars, c ≠ '\x7b' ∧ c ≠ '\x7d' ∧ c ≠ '\n'

/-- The characters before a statement on its line. -/
structure Indent where
  chars : List Char
  blank : ∀ c ∈ chars, c = ' ' ∨ c = '\t'

/-- A value in a statement. -/
inductive Value where
  | number (value : Number)
  | name (value : Name)

/-- A statement of one line. -/
inductive Plain where
  | blank
  | remark (text : Remark)
  | printText (text : Quote)
  | printValue (text : Quote) (value : Value)
  | declare (name : Name) (value : Value)
  | assign (dest : Name) (lhs rhs : Value)

/-- The test of a branch. -/
structure Check where
  guard : Name
  op : Comparison
  literal : Number

/-- The head of a statement with one block. -/
inductive Head where
  | loop (guard : Name) (bound : Number)
  | branch (check : Check)

/-- A statement with its blocks. -/
inductive Tree where
  | plain (stmt : Plain)
  | block (head : Head) (body : List Tree)
  | choice (check : Check) (block other : List Tree)

/-! ## How it is written -/

namespace Name

def chars (name : Name) : List Char :=
  name.first :: name.more

def lexeme (name : Name) : Lexeme :=
  ⟨[], .name, name.chars⟩

end Name

namespace Number

/-- The decimal digits of a number. -/
def digits (number : Number) : List Char :=
  Nat.toDigits 10 number.value

def lexeme (number : Number) : Lexeme :=
  ⟨[], .integer, number.digits⟩

end Number

def Quote.lexeme (text : Quote) : Lexeme :=
  ⟨[], .quoted, '"' :: text.chars ++ ['"']⟩

def Remark.lexeme (text : Remark) : Lexeme :=
  ⟨[], .comment, '/' :: '/' :: text.chars⟩

namespace Value

def chars : Value → List Char
  | number value => value.digits
  | name value => value.chars

def lexeme : Value → Lexeme
  | number value => value.lexeme
  | name value => value.lexeme

end Value

def keyword (word : Keyword) : Lexeme :=
  ⟨[], .keyword word, word.spelling.toList⟩

def comparison (op : Comparison) : Lexeme :=
  ⟨[], .comparison op, op.spelling.toList⟩

/-- The sign of an assignment. -/
def equals : Lexeme := ⟨[], .equals, ['=']⟩

/-- The sign of a sum. -/
def plus : Lexeme := ⟨[], .plus, ['+']⟩

/-- The end of a statement of one line. -/
def semicolon : Lexeme := ⟨[], .semicolon, [';']⟩

/-- The start of a block. -/
def openBrace : Lexeme := ⟨[], .openBrace, ['\x7b']⟩

/-- The end of a block. -/
def closeBrace : Lexeme := ⟨[], .closeBrace, ['\x7d']⟩

namespace Plain

/-- A statement of one line. -/
def lexemes : Plain → List Lexeme
  | blank => []
  | remark text => [text.lexeme]
  | printText text => [keyword .print, text.lexeme.spaced, semicolon]
  | printValue text value =>
    [keyword .print, text.lexeme.spaced, plus.spaced, value.lexeme.spaced, semicolon]
  | declare name value =>
    [keyword .declare, name.lexeme.spaced, equals.spaced, value.lexeme.spaced, semicolon]
  | assign dest lhs rhs =>
    [dest.lexeme, equals.spaced, lhs.lexeme.spaced, plus.spaced, rhs.lexeme.spaced, semicolon]

end Plain

/-- The line of a branch. -/
def Check.lexemes (check : Check) : List Lexeme :=
  [keyword .branch, check.guard.lexeme.spaced, (comparison check.op).spaced,
    check.literal.lexeme.spaced, openBrace.spaced]

/-- The line that opens a block. -/
def Head.lexemes : Head → List Lexeme
  | loop guard bound =>
    [keyword .loop, guard.lexeme.spaced, (comparison .lt).spaced, bound.lexeme.spaced,
      openBrace.spaced]
  | branch check => check.lexemes

/-- What writing is free to choose: the indentation of each line, and whether the other block of a
choice is opened on a line of its own after the line that ends the first block. -/
structure Style where
  indent : Nat → Indent
  split : Nat → Bool

namespace Style

/-- A line of the given lexemes. -/
def write (style : Style) (line : Nat) (lexemes : List Lexeme) : Line :=
  (style.indent line).chars ++ Lexeme.write lexemes

/-- The lines between the two blocks of a choice, the first of which is `line`. -/
def between (style : Style) (line : Nat) : List Line :=
  if style.split line then
    [style.write line [closeBrace],
      style.write (line + 1) [keyword .otherwise, openBrace.spaced]]
  else [style.write line [closeBrace, (keyword .otherwise).spaced, openBrace.spaced]]

/-- The column of what stands on a line behind `count` characters of the statement there. -/
def column (style : Style) (line count : Nat) : Nat :=
  (style.indent line).chars.length + count

end Style

mutual

/-- The lines of a statement that is written from line `line` on. -/
def Tree.lines (style : Style) (line : Nat) : Tree → List Line
  | .plain stmt => [style.write line stmt.lexemes]
  | .block head body =>
    let inside := Tree.allLines style (line + 1) body
    style.write line head.lexemes ::
      (inside ++ [style.write (line + 1 + inside.length) [closeBrace]])
  | .choice check body other =>
    let inside := Tree.allLines style (line + 1) body
    let close := line + 1 + inside.length
    let first := close + (style.between close).length
    let rest := Tree.allLines style first other
    style.write line check.lexemes ::
      (inside ++
        (style.between close ++ (rest ++ [style.write (first + rest.length) [closeBrace]])))

/-- The lines of consecutive statements that are written from line `line` on. -/
def Tree.allLines (style : Style) (line : Nat) : List Tree → List Line
  | [] => []
  | tree :: rest =>
    let lines := Tree.lines style line tree
    lines ++ Tree.allLines style (line + lines.length) rest

end

/-! ## What it should be read as -/

/-- The variable that a name refers to. -/
def Name.varRef (name : Name) (pos : Pos) : VarRef :=
  ⟨String.ofList name.chars, pos⟩

/-- A number as a machine word. -/
def Number.int64 (number : Number) : Int64 :=
  Int64.ofNat number.value

/-- The word holds the number itself. -/
theorem Number.toInt_int64 (number : Number) : number.int64.toInt = number.value := by
  have small := number.small
  rw [maxInteger] at small
  exact Int64.toInt_ofNat_of_lt (by omega)

/-- The operand that a value is at a position. -/
def Value.operand (pos : Pos) : Value → Operand
  | number value => .literal value.int64 pos
  | name value => .var (value.varRef pos)

/-- The action of a statement of one line. What stands behind `count` of its characters has the
position `pos count`. -/
def Plain.action (pos : Nat → Pos) : Plain → Action
  | blank => .blank
  | remark _ => .comment
  | printText text => .printText (String.ofList text.chars)
  | printValue text value =>
    .printValue (String.ofList text.chars)
      (value.operand (pos ("print \"\" + ".length + text.chars.length)))
  | declare name value =>
    .declare (String.ofList name.chars)
      (value.operand (pos ("var  = ".length + name.chars.length)))
  | assign dest lhs rhs =>
    .assign (dest.varRef (pos 0)) (lhs.operand (pos (" = ".length + dest.chars.length)))
      (rhs.operand (pos (" =  + ".length + dest.chars.length + lhs.chars.length)))

/-- The test of a branch. -/
def Check.test (pos : Nat → Pos) (check : Check) : Test :=
  ⟨check.guard.varRef (pos "if ".length), check.op, check.literal.int64⟩

/-- What the line of a head opens. -/
def Head.opener (pos : Nat → Pos) : Head → Opener
  | loop guard bound => .loop (guard.varRef (pos "while ".length)) bound.int64
  | branch check => .branch (check.test pos)

/-- The statement of a head with its block. -/
def Head.stmt (line : UInt32) (pos : Nat → Pos) (block : List Stmt) : Head → Stmt
  | loop guard bound => .loop line (guard.varRef (pos "while ".length)) bound.int64 block
  | branch check => .branch line (check.test pos) block

mutual

/-- The statement that is written from line `line` on. What stands in a column of a line has the
position that `place` gives to the two. -/
def Tree.stmt (style : Style) (place : Nat → Nat → Pos) (line : Nat) : Tree → Stmt
  | .plain stmt =>
    .action (place line 0).line (stmt.action fun count => place line (style.column line count))
  | .block head body =>
    head.stmt (place line 0).line (fun count => place line (style.column line count))
      (Tree.stmts style place (line + 1) body)
  | .choice check body other =>
    let close := line + 1 + (Tree.allLines style (line + 1) body).length
    .choice (place line 0).line (check.test fun count => place line (style.column line count))
      (Tree.stmts style place (line + 1) body)
      (Tree.stmts style place (close + (style.between close).length) other)

/-- The statements that are written from line `line` on. -/
def Tree.stmts (style : Style) (place : Nat → Nat → Pos) (line : Nat) : List Tree → List Stmt
  | [] => []
  | tree :: rest =>
    Tree.stmt style place line tree ::
      Tree.stmts style place (line + (Tree.lines style line tree).length) rest

end

/-- A line and a column that fit into 32 bits, as they are. -/
def exactly (line col : Nat) : Pos :=
  ⟨UInt32.ofNat line, UInt32.ofNat col⟩

end Written

end LineScript
