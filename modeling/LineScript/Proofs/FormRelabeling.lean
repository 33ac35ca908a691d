import LineScript.Proofs.Relabeling

/-!
# Forms with other places

What a recogniser reads of a token is its kind, its characters and its place. If the tokens of a
line are given other places and nothing else, the recognised form is the same with other places,
those that the same `Relabeling` gives. Only a line without a known form also looks at its text,
for the text that a fault quotes and for the end that it points at.

Moving a line down and taking its columns away are two instances.
-/

namespace LineScript

section

variable (labels : Relabeling)

def Opener.relabel : Opener → Opener
  | .loop guard bound => .loop (guard.relabel labels) bound
  | .branch test => .branch (test.relabel labels)
  | .refused fault => .refused (labels.fault fault)

def Form.relabel : Form → Form
  | .action simple => .action (simple.relabel labels)
  | .opener opens => .opener (opens.relabel labels)

end

/-- Tokens of line `line` that become tokens of line `line'`, at the places that `labels` gives. The
faults that point at a token move with it. -/
structure Relabeling.Moves (labels : Relabeling) (line line' : Nat) (move : Token → Token) :
    Prop where
  kind : ∀ token, (move token).kind = token.kind
  text : ∀ token, (move token).text = token.text
  pos : ∀ token, (move token).pos line' = labels.pos (token.pos line)
  literal : ∀ digits place,
    labels.fault ⟨.literalTooLarge digits, place⟩ = ⟨.literalTooLarge digits, labels.pos place⟩
  function : ∀ name place,
    labels.fault ⟨.functionRefused name, place⟩ = ⟨.functionRefused name, labels.pos place⟩

/-- The faults of a line without a known form become those of another line. -/
structure Relabeling.Rewords (labels : Relabeling) (line : Nat) (text : Line) (line' : Nat)
    (text' : Line) : Prop where
  unknown : labels.fault (Form.unknown line text) = Form.unknown line' text'
  unterminated : labels.fault ⟨.unterminated, .clamped line (trimEnd text).length⟩ =
    ⟨.unterminated, .clamped line' (trimEnd text').length⟩

namespace Form

/-- The form of a line with the given tokens. -/
def ofTokens (line : Nat) (text : Line) : List Token → Form
  | [] => .action .blank
  | first :: rest =>
    if first.kind = .comment then .action .comment
    else ofCode line text (codeTokens (first :: rest))

theorem ofLine_eq (line : Nat) (text : Line) : ofLine line text = ofTokens line text (scan text) :=
  rfl

variable {labels : Relabeling} {line line' : Nat} {move : Token → Token}

theorem ofAction_relabel (result : Except Fault Action) :
    ofAction ((result.mapError labels.fault).map (Action.relabel labels)) =
      (ofAction result).relabel labels := by
  cases result with
  | error fault => rfl
  | ok simple => rfl

theorem ofOpener_relabel (result : Except Fault Opener) :
    ofOpener ((result.mapError labels.fault).map (Opener.relabel labels)) =
      (ofOpener result).relabel labels := by
  cases result with
  | error fault => rfl
  | ok opens => rfl

end Form

namespace Relabeling.Moves

variable {labels : Relabeling} {line line' : Nat} {move : Token → Token}
  (moves : labels.Moves line line' move)

include moves

theorem word (token : Token) : (move token).word = token.word := by
  rw [Token.word, Token.word, moves.text]

theorem varRef (token : Token) :
    (move token).varRef line' = (token.varRef line).relabel labels := by
  rw [Token.varRef, Token.varRef, moves.word, moves.pos]
  rfl

theorem contents (token : Token) : (move token).contents = token.contents := by
  rw [Token.contents, Token.contents, moves.kind, moves.text]

theorem integer (token : Token) :
    (move token).integer line' = (token.integer line).mapError labels.fault := by
  simp only [Token.integer, moves.text, moves.word, moves.pos]
  split
  · rfl
  · exact congrArg Except.error (moves.literal token.word (token.pos line)).symm

theorem operand (token : Token) :
    (move token).operand line' =
      ((token.operand line).mapError labels.fault).map (Operand.relabel labels) := by
  simp only [Token.operand, moves.kind, moves.integer, moves.varRef, moves.pos]
  split
  · cases token.integer line with
    | error fault => rfl
    | ok value => rfl
  · rfl

theorem endsIn (kind : TokenKind) (tokens : List Token) :
    Form.endsIn kind (tokens.map move) = Form.endsIn kind tokens := by
  have kinds : Token.kind ∘ move = Token.kind := funext moves.kind
  rw [Form.endsIn, Form.endsIn, List.getLast?_map, Option.map_map, kinds]

theorem codeTokens (tokens : List Token) :
    codeTokens (tokens.map move) = (LineScript.codeTokens tokens).map move := by
  simp only [LineScript.codeTokens, List.takeWhile_map, Function.comp_def, moves.kind]

theorem printText? (tokens : List Token) :
    Form.printText? (tokens.map move) = (Form.printText? tokens).map (Form.relabel labels) := by
  match tokens with
  | [word, text, stop] =>
      simp only [List.map, Form.printText?, moves.kind, moves.contents]
      split
      · rfl
      · rfl
  | [] | [_] | [_, _] | _ :: _ :: _ :: _ :: _ => rfl

theorem printValue? (tokens : List Token) :
    Form.printValue? line' (tokens.map move) =
      (Form.printValue? line tokens).map (Form.relabel labels) := by
  match tokens with
  | [word, text, plus, value, stop] =>
      simp only [List.map, Form.printValue?, moves.kind, moves.contents, moves.operand]
      split
      · rw [Option.map_some, ← Form.ofAction_relabel]
        cases value.operand line with
        | error fault => rfl
        | ok operand => rfl
      · rfl
  | [] | [_] | [_, _] | [_, _, _] | [_, _, _, _] | _ :: _ :: _ :: _ :: _ :: _ :: _ => rfl

theorem declare? (tokens : List Token) :
    Form.declare? line' (tokens.map move) =
      (Form.declare? line tokens).map (Form.relabel labels) := by
  match tokens with
  | [word, name, equals, value, stop] =>
      simp only [List.map, Form.declare?, moves.kind, moves.word, moves.operand]
      split
      · rw [Option.map_some, ← Form.ofAction_relabel]
        cases value.operand line with
        | error fault => rfl
        | ok operand => rfl
      · rfl
  | [] | [_] | [_, _] | [_, _, _] | [_, _, _, _] | _ :: _ :: _ :: _ :: _ :: _ :: _ => rfl

theorem assign? (tokens : List Token) :
    Form.assign? line' (tokens.map move) =
      (Form.assign? line tokens).map (Form.relabel labels) := by
  match tokens with
  | [dest, equals, lhs, plus, rhs, stop] =>
      simp only [List.map, Form.assign?, moves.kind, moves.varRef, moves.operand]
      split
      · rw [Option.map_some, ← Form.ofAction_relabel]
        cases lhs.operand line with
        | error fault => rfl
        | ok left =>
            cases rhs.operand line with
            | error fault => rfl
            | ok right => rfl
      · rfl
  | [] | [_] | [_, _] | [_, _, _] | [_, _, _, _] | [_, _, _, _, _]
  | _ :: _ :: _ :: _ :: _ :: _ :: _ :: _ => rfl

theorem loop? (tokens : List Token) :
    Form.loop? line' (tokens.map move) = (Form.loop? line tokens).map (Form.relabel labels) := by
  match tokens with
  | [word, guard, less, bound, brace] =>
      simp only [List.map, Form.loop?, moves.kind, moves.varRef, moves.integer]
      split
      · rw [Option.map_some, ← Form.ofOpener_relabel]
        cases bound.integer line with
        | error fault => rfl
        | ok value => rfl
      · rfl
  | [] | [_] | [_, _] | [_, _, _] | [_, _, _, _] | _ :: _ :: _ :: _ :: _ :: _ :: _ => rfl

theorem branch? (tokens : List Token) :
    Form.branch? line' (tokens.map move) =
      (Form.branch? line tokens).map (Form.relabel labels) := by
  match tokens with
  | [word, guard, sign, literal, brace] =>
      simp only [List.map, Form.branch?, moves.kind, moves.varRef, moves.integer]
      split
      · rfl
      · split
        · rw [Option.map_some, ← Form.ofOpener_relabel]
          cases literal.integer line with
          | error fault => rfl
          | ok value => rfl
        · rfl
  | [] | [_] | [_, _] | [_, _, _] | [_, _, _, _] | _ :: _ :: _ :: _ :: _ :: _ :: _ => rfl

theorem function? (tokens : List Token) :
    Form.function? line' (tokens.map move) =
      (Form.function? line tokens).map (Form.relabel labels) := by
  cases tokens with
  | nil => rfl
  | cons word rest =>
      have name : (((rest.map move).head?.filter fun token => token.kind = .name).map Token.word) =
          ((rest.head?.filter fun token => token.kind = .name).map Token.word) := by
        cases rest with
        | nil => rfl
        | cons next rest =>
            simp only [List.map_cons, List.head?_cons, Option.filter_some, moves.kind]
            split
            · rw [Option.map_some, moves.word]
              rfl
            · rfl
      rw [List.map_cons, Form.function?, Form.function?, moves.kind, name, moves.endsIn, moves.pos]
      split
      · dsimp only
        rw [Option.map_some, ← moves.function]
        split
        · rfl
        · rfl
      · rfl

variable {text text' : Line} (rewords : labels.Rewords line text line' text')

include rewords

theorem unrecognised (tokens : List Token) :
    Form.unrecognised line' text' (tokens.map move) =
      (Form.unrecognised line text tokens).relabel labels := by
  have first : (tokens.map move).head?.map Token.kind = tokens.head?.map Token.kind := by
    cases tokens with
    | nil => rfl
    | cons token rest => exact congrArg some (moves.kind token)
  simp only [Form.unrecognised, moves.endsIn, first, ← rewords.unknown, ← rewords.unterminated]
  split
  · rfl
  · split
    · rfl
    · rfl

theorem ofCode (tokens : List Token) :
    Form.ofCode line' text' (tokens.map move) = (Form.ofCode line text tokens).relabel labels := by
  rw [Form.ofCode, Form.ofCode, moves.printText?, moves.printValue?, moves.declare?, moves.assign?,
    moves.loop?, moves.branch?, moves.function?, moves.unrecognised rewords]
  simp only [Option.orElse_eq_orElse, Option.orElse_eq_or, ← Option.map_or]
  exact Option.getD_map _ _ _

/-- Tokens at other places have the same form, at other places. -/
theorem ofTokens (tokens : List Token) :
    Form.ofTokens line' text' (tokens.map move) =
      (Form.ofTokens line text tokens).relabel labels := by
  cases tokens with
  | nil => rfl
  | cons first rest =>
      have code := moves.ofCode rewords (LineScript.codeTokens (first :: rest))
      rw [← moves.codeTokens, List.map_cons] at code
      rw [List.map_cons, Form.ofTokens, Form.ofTokens, moves.kind, code]
      split
      · rfl
      · rfl

end Relabeling.Moves

end LineScript
