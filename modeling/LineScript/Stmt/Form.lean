import LineScript.Stmt
import LineScript.Token.Scan
import LineScript.Text.Blank
import LineScript.Decimal.Digits

/-!
# The form of a line

A line is recognised by its tokens alone. It is a statement of its own, or it opens a block.
The forms exclude each other, so the order in which they are tried does not matter; a line
that has none of them is a fault, kept as an invalid statement, or as the opener of a block
that is skipped when the line ends in an opening brace.
-/

namespace LineScript

/-- A line that opens a block. -/
inductive Opener where
  | loop (guard : VarRef) (bound : Int64)
  | branch (test : Test)
  /-- No known opener. The block is skipped, and executing the line raises the fault. -/
  | refused (fault : Fault)
deriving DecidableEq

/-- What a line is. -/
inductive Form where
  | action (action : Action)
  | opener (opener : Opener)
deriving DecidableEq

/-- The largest integer of the language, 2⁶³ − 1. -/
def maxInteger : Nat := 9223372036854775807

namespace Token

/-- The position of a token on the line with the given index. -/
def pos (token : Token) (line : Nat) : Pos :=
  .clamped line token.col

/-- The characters of a token as a text. -/
def word (token : Token) : String :=
  String.ofList token.text

/-- The variable that a name token refers to. -/
def varRef (token : Token) (line : Nat) : VarRef :=
  ⟨token.word, token.pos line⟩

/-- The value of an integer token, which must not be too large. -/
def integer (token : Token) (line : Nat) : Except Fault Int64 :=
  let value := digitsValueUpTo (maxInteger + 1) token.text
  if value ≤ maxInteger then .ok (Int64.ofNat value)
  else .error ⟨.literalTooLarge token.word, token.pos line⟩

/-- The operand that a value token stands for. -/
def operand (token : Token) (line : Nat) : Except Fault Operand :=
  if token.kind = .integer then
    (token.integer line).map fun value => .literal value (token.pos line)
  else .ok (.var (token.varRef line))

end Token

namespace Form

/-- The action, or the fault in its place. -/
def ofAction : Except Fault Action → Form
  | .ok done => .action done
  | .error fault => .action (.invalid fault)

/-- The opener, or the fault in its place. -/
def ofOpener : Except Fault Opener → Form
  | .ok opens => .opener opens
  | .error fault => .opener (.refused fault)

/-- The fault of a line with text `text` that is no statement. -/
def unknown (line : Nat) (text : Line) : Fault :=
  ⟨.unknownForm (String.ofList (trim text)), .clamped line 0⟩

/-- The form `print "text";`. -/
def printText? : List Token → Option Form
  | [word, text, stop] =>
    if word.kind = .keyword .print ∧ text.kind = .quoted ∧ stop.kind = .semicolon then
      some (.action (.printText (String.ofList text.contents)))
    else none
  | _ => none

/-- The form `print "text" + value;`. -/
def printValue? (line : Nat) : List Token → Option Form
  | [word, text, plus, value, stop] =>
    if word.kind = .keyword .print ∧ text.kind = .quoted ∧ plus.kind = .plus ∧
        value.kind.isValue ∧ stop.kind = .semicolon then
      some (ofAction ((value.operand line).map (.printValue (String.ofList text.contents))))
    else none
  | _ => none

/-- The form `var name = value;`. -/
def declare? (line : Nat) : List Token → Option Form
  | [word, name, equals, value, stop] =>
    if word.kind = .keyword .declare ∧ name.kind = .name ∧ equals.kind = .equals ∧
        value.kind.isValue ∧ stop.kind = .semicolon then
      some (ofAction ((value.operand line).map (.declare name.word)))
    else none
  | _ => none

/-- The form `name = value + value;`. Of two literals that are too large the left one is
reported. -/
def assign? (line : Nat) : List Token → Option Form
  | [dest, equals, lhs, plus, rhs, stop] =>
    if dest.kind = .name ∧ equals.kind = .equals ∧ lhs.kind.isValue ∧ plus.kind = .plus ∧
        rhs.kind.isValue ∧ stop.kind = .semicolon then
      some <| ofAction <|
        match lhs.operand line with
        | .error fault => .error fault
        | .ok left => (rhs.operand line).map (.assign (dest.varRef line) left)
    else none
  | _ => none

/-- The form `while name < integer {`. -/
def loop? (line : Nat) : List Token → Option Form
  | [word, guard, less, bound, brace] =>
    if word.kind = .keyword .loop ∧ guard.kind = .name ∧ less.kind = .comparison .lt ∧
        bound.kind = .integer ∧ brace.kind = .openBrace then
      some (ofOpener ((bound.integer line).map (.loop (guard.varRef line))))
    else none
  | _ => none

/-- The comparison that a kind of token is. -/
def comparison? : TokenKind → Option Comparison
  | .comparison op => some op
  | _ => none

/-- The form `if name op integer {`. -/
def branch? (line : Nat) : List Token → Option Form
  | [word, guard, sign, literal, brace] =>
    match comparison? sign.kind with
    | none => none
    | some op =>
      if word.kind = .keyword .branch ∧ guard.kind = .name ∧ literal.kind = .integer ∧
          brace.kind = .openBrace then
        some (ofOpener ((literal.integer line).map fun value =>
          .branch ⟨guard.varRef line, op, value⟩))
      else none
  | _ => none

/-- Whether the last token is of the given kind. -/
def endsIn (kind : TokenKind) (tokens : List Token) : Bool :=
  tokens.getLast?.map Token.kind = some kind

/-- A line that begins with the word for a function, which is refused at that word. The name
is the next token, if that is a name. -/
def function? (line : Nat) : List Token → Option Form
  | word :: rest =>
    if word.kind = .keyword .function then
      let name := (rest.head?.filter fun token => token.kind = .name).map Token.word
      let fault : Fault := ⟨.functionRefused name, word.pos line⟩
      some (if endsIn .openBrace rest then .opener (.refused fault) else .action (.invalid fault))
    else none
  | [] => none

/-- The form of a line of no known form. Without a brace or terminator to end it, it is
reported as unterminated, just past its last character that is not blank. -/
def unrecognised (line : Nat) (text : Line) (tokens : List Token) : Form :=
  if endsIn .openBrace tokens then .opener (.refused (unknown line text))
  else if tokens.head?.map Token.kind = some .closeBrace ∨ endsIn .semicolon tokens then
    .action (.invalid (unknown line text))
  else .action (.invalid ⟨.unterminated, .clamped line (trimEnd text).length⟩)

/-- The form of a line with at least one token before its comment. -/
def ofCode (line : Nat) (text : Line) (tokens : List Token) : Form :=
  (printText? tokens <|> printValue? line tokens <|> declare? line tokens <|>
    assign? line tokens <|> loop? line tokens <|> branch? line tokens <|>
    function? line tokens).getD (unrecognised line text tokens)

/-- The form of the line with the given index. -/
def ofLine (line : Nat) (text : Line) : Form :=
  match scan text with
  | [] => .action .blank
  | first :: rest =>
    if first.kind = .comment then .action .comment
    else ofCode line text (codeTokens (first :: rest))

end Form

end LineScript
