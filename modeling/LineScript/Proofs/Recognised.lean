import LineScript.Stmt.Form

/-!
# Recognised lines

The recognisers look at the number of tokens and at their kinds, and read the form off the tokens.
`Recognised` is this as a relation, with one rule for each form of a statement. The rules exclude
each other, so whatever is recognised is the form of its line, and a line whose form is a statement
or the head of a block was recognised by one of the rules.
-/

namespace LineScript

/-! ## Integers -/

/-- Reading an integer is not affected by the cap on its value. -/
theorem Token.integer_eq (token : Token) (line : Nat) :
    token.integer line = if digitsValue token.text ≤ maxInteger
      then .ok (Int64.ofNat (digitsValue token.text))
      else .error ⟨.literalTooLarge token.word, token.pos line⟩ := by
  rw [Token.integer, digitsValueUpTo_eq]
  by_cases small : digitsValue token.text ≤ maxInteger
  · rw [Nat.min_eq_left (Nat.le_succ_of_le small)]
  · rw [Nat.min_eq_right (Nat.lt_of_not_le small), if_neg (Nat.not_succ_le_self _), if_neg small]

/-- An integer is read as the word that holds its value, if there is one. -/
theorem Token.integer_ok_iff (token : Token) (line : Nat) (value : Int64) :
    token.integer line = .ok value ↔ value.toInt = digitsValue token.text := by
  rw [token.integer_eq]
  constructor
  · intro read
    split at read
    · next small =>
      cases read
      rw [maxInteger] at small
      exact Int64.toInt_ofNat_of_lt (by omega)
    · cases read
  · intro same
    have bound := value.toInt_lt
    have small : digitsValue token.text ≤ maxInteger := by
      rw [maxInteger]
      omega
    rw [if_pos small]
    congr 1
    rw [maxInteger] at small
    exact Int64.toInt_inj.mp ((Int64.toInt_ofNat_of_lt (by omega)).trans same.symm)

/-! ## The forms of statements -/

/-- The form is a statement or the head of a block that was understood. -/
def Form.isStatement : Form → Bool
  | .action .blank | .action .comment | .action (.invalid _) | .opener (.refused _) => false
  | _ => true

/-- The tokens of a line that are those of a statement or of the head of a block, and its form. The
form is a fault if an integer is too large. -/
inductive Recognised (line : Nat) : List Token → Form → Prop
  | printText {word text stop : Token} (start : word.kind = .keyword .print)
      (quoted : text.kind = .quoted) (ended : stop.kind = .semicolon) :
      Recognised line [word, text, stop] (.action (.printText (String.ofList text.contents)))
  | printValue {word text plus value stop : Token} (start : word.kind = .keyword .print)
      (quoted : text.kind = .quoted) (sum : plus.kind = .plus) (term : value.kind.isValue = true)
      (ended : stop.kind = .semicolon) :
      Recognised line [word, text, plus, value, stop]
        (.ofAction ((value.operand line).map (.printValue (String.ofList text.contents))))
  | declare {word name equals value stop : Token} (start : word.kind = .keyword .declare)
      (named : name.kind = .name) (equal : equals.kind = .equals)
      (term : value.kind.isValue = true) (ended : stop.kind = .semicolon) :
      Recognised line [word, name, equals, value, stop]
        (.ofAction ((value.operand line).map (.declare name.word)))
  | assign {dest equals lhs plus rhs stop : Token} (named : dest.kind = .name)
      (equal : equals.kind = .equals) (left : lhs.kind.isValue = true) (sum : plus.kind = .plus)
      (right : rhs.kind.isValue = true) (ended : stop.kind = .semicolon) :
      Recognised line [dest, equals, lhs, plus, rhs, stop]
        (.ofAction ((lhs.operand line).bind fun left =>
          (rhs.operand line).map (.assign (dest.varRef line) left)))
  | loop {word guard less bound brace : Token} (start : word.kind = .keyword .loop)
      (named : guard.kind = .name) (compared : less.kind = .comparison .lt)
      (integer : bound.kind = .integer) (ended : brace.kind = .openBrace) :
      Recognised line [word, guard, less, bound, brace]
        (.ofOpener ((bound.integer line).map (.loop (guard.varRef line))))
  | branch {word guard sign literal brace : Token} {op : Comparison}
      (start : word.kind = .keyword .branch) (named : guard.kind = .name)
      (compared : sign.kind = .comparison op) (integer : literal.kind = .integer)
      (ended : brace.kind = .openBrace) :
      Recognised line [word, guard, sign, literal, brace]
        (.ofOpener ((literal.integer line).map fun value =>
          .branch ⟨guard.varRef line, op, value⟩))

variable {line : Nat} {tokens : List Token} {form : Form}

/-- What a rule recognises is the form of the tokens. -/
theorem Recognised.ofCode (recognised : Recognised line tokens form) (text : Line) :
    Form.ofCode line text tokens = form := by
  cases recognised with
  | printText start quoted ended =>
      simp [Form.ofCode, Form.printText?, start, quoted, ended]
  | printValue start quoted sum term ended =>
      simp [Form.ofCode, Form.printText?, Form.printValue?, start, quoted, sum, term, ended]
  | declare start named equal term ended =>
      simp [Form.ofCode, Form.printText?, Form.printValue?, Form.declare?, start, named, equal,
        term, ended]
  | @assign dest equals lhs plus rhs stop named equal left sum right ended =>
      simp only [Form.ofCode, Form.printText?, Form.printValue?, Form.declare?, Form.assign?, named,
        equal, left, sum, right, ended]
      cases lhs.operand line <;> rfl
  | loop start named compared integer ended =>
      simp [Form.ofCode, Form.printText?, Form.printValue?, Form.declare?, Form.assign?, Form.loop?,
        start, named, compared, integer, ended]
  | branch start named compared integer ended =>
      simp [Form.ofCode, Form.printText?, Form.printValue?, Form.declare?, Form.assign?, Form.loop?,
        Form.branch?, Form.comparison?, start, named, compared, integer, ended]

/-! ## Each recogniser follows its rule -/

namespace Form

theorem printText?_recognised (h : printText? tokens = some form) :
    Recognised line tokens form := by
  unfold printText? at h
  split at h
  · split at h
    · next kinds =>
      obtain ⟨start, quoted, ended⟩ := kinds
      cases h
      exact .printText start quoted ended
    · cases h
  · cases h

theorem printValue?_recognised (h : printValue? line tokens = some form) :
    Recognised line tokens form := by
  unfold printValue? at h
  split at h
  · split at h
    · next kinds =>
      obtain ⟨start, quoted, sum, term, ended⟩ := kinds
      cases h
      exact .printValue start quoted sum term ended
    · cases h
  · cases h

theorem declare?_recognised (h : declare? line tokens = some form) :
    Recognised line tokens form := by
  unfold declare? at h
  split at h
  · split at h
    · next kinds =>
      obtain ⟨start, named, equal, term, ended⟩ := kinds
      cases h
      exact .declare start named equal term ended
    · cases h
  · cases h

theorem assign?_recognised (h : assign? line tokens = some form) :
    Recognised line tokens form := by
  unfold assign? at h
  split at h
  · next dest equals lhs plus rhs stop =>
    split at h
    · next kinds =>
      obtain ⟨named, equal, left, sum, right, ended⟩ := kinds
      have recognised : Recognised line [dest, equals, lhs, plus, rhs, stop] _ :=
        .assign named equal left sum right ended
      cases read : lhs.operand line with
      | error fault =>
          rw [read] at h recognised
          cases h
          exact recognised
      | ok operand =>
          rw [read] at h recognised
          cases h
          exact recognised
    · cases h
  · cases h

theorem loop?_recognised (h : loop? line tokens = some form) : Recognised line tokens form := by
  unfold loop? at h
  split at h
  · split at h
    · next kinds =>
      obtain ⟨start, named, compared, integer, ended⟩ := kinds
      cases h
      exact .loop start named compared integer ended
    · cases h
  · cases h

theorem comparison?_eq_some {kind : TokenKind} {op : Comparison} (h : comparison? kind = some op) :
    kind = .comparison op := by
  cases kind <;> cases h
  rfl

theorem branch?_recognised (h : branch? line tokens = some form) :
    Recognised line tokens form := by
  unfold branch? at h
  split at h
  · split at h
    · cases h
    · next op compared =>
      split at h
      · next kinds =>
        obtain ⟨start, named, integer, ended⟩ := kinds
        cases h
        exact .branch start named (comparison?_eq_some compared) integer ended
      · cases h
  · cases h

/-- The form of tokens is recognised by one of the rules, or it is about a function, or it is that
of no known form. -/
theorem ofCode_cases (line : Nat) (text : Line) (tokens : List Token) :
    Recognised line tokens (ofCode line text tokens) ∨
      function? line tokens = some (ofCode line text tokens) ∨
      ofCode line text tokens = unrecognised line text tokens := by
  rw [ofCode]
  cases found : (printText? tokens <|> printValue? line tokens <|> declare? line tokens <|>
      assign? line tokens <|> loop? line tokens <|> branch? line tokens <|>
      function? line tokens) with
  | none => exact .inr (.inr rfl)
  | some form =>
      rw [Option.getD_some]
      simp only [Option.orElse_eq_orElse, Option.orElse_eq_or, Option.or_eq_some_iff] at found
      rcases found with h | ⟨-, h | ⟨-, h | ⟨-, h | ⟨-, h | ⟨-, h | ⟨-, h⟩⟩⟩⟩⟩⟩
      · exact .inl (printText?_recognised h)
      · exact .inl (printValue?_recognised h)
      · exact .inl (declare?_recognised h)
      · exact .inl (assign?_recognised h)
      · exact .inl (loop?_recognised h)
      · exact .inl (branch?_recognised h)
      · exact .inr (.inl h)

theorem function?_isStatement (h : function? line tokens = some form) :
    form.isStatement = false := by
  unfold function? at h
  split at h
  · split at h
    · cases h
      split <;> rfl
    · cases h
  · cases h

theorem unrecognised_isStatement (line : Nat) (text : Line) (tokens : List Token) :
    (unrecognised line text tokens).isStatement = false := by
  unfold unrecognised
  split
  · rfl
  · split <;> rfl

/-- A statement was recognised by one of the rules. -/
theorem recognised_of_isStatement {text : Line}
    (statement : (ofCode line text tokens).isStatement = true) :
    Recognised line tokens (ofCode line text tokens) := by
  rcases ofCode_cases line text tokens with recognised | function | unknown
  · exact recognised
  · rw [function?_isStatement function] at statement
    cases statement
  · rw [unknown, unrecognised_isStatement] at statement
    cases statement

end Form

end LineScript
