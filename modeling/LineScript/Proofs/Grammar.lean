import LineScript.Proofs.Bare
import LineScript.Proofs.Phrase
import LineScript.Proofs.Recognised

/-!
# The grammar of a line

A line is a statement, or the head of a block, exactly if it spells a phrase whose numerals are not
too large. `Phrase.Means` gives the form of such a phrase: its texts, names and numbers are those
that are spelled, and its positions are the columns in which they stand. If a numeral is too large,
the leftmost such numeral is the fault of the line, and behind a head the block is skipped.
-/

namespace LineScript

/-! ## What a phrase means -/

/-- The number that a numeral stands for. -/
def Numeral.value (numeral : Numeral) : Nat :=
  digitsValue numeral.digits

/-- The operand that a term is at a position. -/
inductive Term.Means (pos : Pos) : Term → Operand → Prop
  | numeral {numeral : Numeral} {value : Int64} (same : value.toInt = numeral.value) :
      Means pos (.numeral numeral) (.literal value pos)
  | name {name : Written.Name} : Means pos (.name name) (.var (name.varRef pos))

/-- The form that a phrase is, if its word number `n` stands at the position `pos n`. -/
inductive Phrase.Means (pos : Nat → Pos) : Phrase → Form → Prop
  | printText {text : Quotation} :
      Means pos (.printText text) (.action (.printText (String.ofList text.chars)))
  | printValue {text : Quotation} {term : Term} {value : Operand}
      (means : term.Means (pos 3) value) :
      Means pos (.printValue text term) (.action (.printValue (String.ofList text.chars) value))
  | declare {name : Written.Name} {term : Term} {value : Operand}
      (means : term.Means (pos 3) value) :
      Means pos (.declare name term) (.action (.declare (String.ofList name.chars) value))
  | assign {dest : Written.Name} {first second : Term} {lhs rhs : Operand}
      (left : first.Means (pos 2) lhs) (right : second.Means (pos 4) rhs) :
      Means pos (.assign dest first second) (.action (.assign (dest.varRef (pos 0)) lhs rhs))
  | loop {guard : Written.Name} {bound : Numeral} {value : Int64}
      (same : value.toInt = bound.value) :
      Means pos (.loop guard bound) (.opener (.loop (guard.varRef (pos 1)) value))
  | branch {guard : Written.Name} {op : Comparison} {literal : Numeral} {value : Int64}
      (same : value.toInt = literal.value) :
      Means pos (.branch guard op literal)
        (.opener (.branch ⟨guard.varRef (pos 1), op, value⟩))

/-- The word number `n` of a phrase is the leftmost numeral that is too large. -/
structure Phrase.TooLarge (phrase : Phrase) (n : Nat) (numeral : Numeral) : Prop where
  word : phrase.words[n]? = some numeral.word
  large : maxInteger < numeral.value
  leftmost : ∀ m < n, ∀ other : Numeral, phrase.words[m]? = some other.word →
    other.value ≤ maxInteger

/-- The form of a phrase with a fault. The block of a head is skipped. -/
def Phrase.refuse (fault : Fault) : Phrase → Form
  | loop _ _ | branch _ _ _ => .opener (.refused fault)
  | printText _ | printValue _ _ | declare _ _ | assign _ _ _ => .action (.invalid fault)

theorem Phrase.Means.isStatement {pos : Nat → Pos} {phrase : Phrase} {form : Form}
    (means : phrase.Means pos form) : form.isStatement = true := by
  cases means <;> rfl

/-! ## Words of a kind -/

namespace IsWord

variable {word : TokenKind × List Char} (isWord : IsWord word)

include isWord

theorem exists_numeral (kind : word.1 = .integer) : ∃ numeral : Numeral, word = numeral.word := by
  obtain ⟨kind, text⟩ := word
  subst kind
  exact ⟨⟨text, isWord.matched.1, isWord.matched.2⟩, rfl⟩

theorem exists_quotation (kind : word.1 = .quoted) : ∃ text : Quotation, word = text.word := by
  obtain ⟨kind, text⟩ := word
  subst kind
  obtain ⟨inside, rfl, plain⟩ := isWord.matched
  exact ⟨⟨inside, plain⟩, rfl⟩

theorem exists_name (kind : word.1 = .name) : ∃ name : Written.Name, word = name.word := by
  obtain ⟨kind, text⟩ := word
  subst kind
  obtain ⟨first, more, rfl, start, all⟩ := isWord.matched
  exact ⟨⟨first, more, start, all, isWord.free rfl⟩, rfl⟩

theorem exists_term (kind : word.1.isValue = true) : ∃ term : Term, word = term.word := by
  obtain ⟨kind', text⟩ := word
  cases kind' with
  | integer =>
      obtain ⟨numeral, same⟩ := isWord.exists_numeral rfl
      exact ⟨.numeral numeral, same⟩
  | name =>
      obtain ⟨name, same⟩ := isWord.exists_name rfl
      exact ⟨.name name, same⟩
  | _ => cases kind

/-- A word of a kind that is written in one way. -/
theorem eq_word {kind : TokenKind} (same : word.1 = kind)
    (fixed : ∀ text, kind.Matches text → text = kind.label.toList) : word = kind.word := by
  subst same
  exact Prod.ext rfl (fixed _ isWord.matched)

end IsWord

/-- The code of a line consists of words, apart from what is stray. -/
theorem isWord_of_mem_scanCode {line : Line} {token : Token} (mem : token ∈ scanCode line)
    (known : token.kind ≠ .stray) : IsWord token.written where
  matched := ((cut_scan line).taken token (mem_scan_of_mem_scanCode mem)).2.longest known |>.matched
  free kind := by
    have spelled := (stands_of_mem_scanCode mem).spelled
    rw [show token.kind = .name from kind] at spelled
    exact spelled.1
  code := of_decide_eq_true (List.all_eq_true.mp List.all_takeWhile token mem)

/-- Recognised tokens are the words of a phrase. -/
theorem Recognised.exists_phrase {index : Nat} {tokens : List Token} {form : Form}
    (recognised : Recognised index tokens form)
    (isWord : ∀ token ∈ tokens, token.kind ≠ .stray → IsWord token.written) :
    ∃ phrase : Phrase, tokens.map Token.written = phrase.words := by
  have word {token : Token} {kind : TokenKind} (same : token.kind = kind) (mem : token ∈ tokens)
      (known : kind ≠ .stray) : IsWord token.written :=
    isWord token mem (same ▸ known)
  have sign {token : Token} {kind : TokenKind} (same : token.kind = kind) (mem : token ∈ tokens)
      (known : kind ≠ .stray) (fixed : ∀ text, kind.Matches text → text = kind.label.toList) :
      token.written = kind.word :=
    (word same mem known).eq_word same fixed
  have name {token : Token} (same : token.kind = .name) (mem : token ∈ tokens) :
      ∃ name : Written.Name, token.written = name.word :=
    (word same mem TokenKind.noConfusion).exists_name same
  have quotation {token : Token} (same : token.kind = .quoted) (mem : token ∈ tokens) :
      ∃ text : Quotation, token.written = text.word :=
    (word same mem TokenKind.noConfusion).exists_quotation same
  have numeral {token : Token} (same : token.kind = .integer) (mem : token ∈ tokens) :
      ∃ numeral : Numeral, token.written = numeral.word :=
    (word same mem TokenKind.noConfusion).exists_numeral same
  have term {token : Token} (value : token.kind.isValue = true) (mem : token ∈ tokens) :
      ∃ term : Term, token.written = term.word := by
    refine (isWord token mem ?_).exists_term value
    intro stray
    rw [stray] at value
    cases value
  cases recognised with
  | printText start quoted ended =>
      have start := sign start (by simp) (by simp) fun _ h => h
      obtain ⟨text, quoted⟩ := quotation quoted (by simp)
      have ended := sign ended (by simp) (by simp) fun _ h => h
      exact ⟨.printText text, by simp [Phrase.words, start, quoted, ended]⟩
  | printValue start quoted sum value ended =>
      have start := sign start (by simp) (by simp) fun _ h => h
      obtain ⟨text, quoted⟩ := quotation quoted (by simp)
      have sum := sign sum (by simp) (by simp) fun _ h => h
      obtain ⟨term, value⟩ := term value (by simp)
      have ended := sign ended (by simp) (by simp) fun _ h => h
      exact ⟨.printValue text term, by simp [Phrase.words, start, quoted, sum, value, ended]⟩
  | declare start named equal value ended =>
      have start := sign start (by simp) (by simp) fun _ h => h
      obtain ⟨name, named⟩ := name named (by simp)
      have equal := sign equal (by simp) (by simp) fun _ h => h
      obtain ⟨term, value⟩ := term value (by simp)
      have ended := sign ended (by simp) (by simp) fun _ h => h
      exact ⟨.declare name term, by simp [Phrase.words, start, named, equal, value, ended]⟩
  | assign named equal left sum right ended =>
      obtain ⟨dest, named⟩ := name named (by simp)
      have equal := sign equal (by simp) (by simp) fun _ h => h
      obtain ⟨lhs, left⟩ := term left (by simp)
      have sum := sign sum (by simp) (by simp) fun _ h => h
      obtain ⟨rhs, right⟩ := term right (by simp)
      have ended := sign ended (by simp) (by simp) fun _ h => h
      exact ⟨.assign dest lhs rhs,
        by simp [Phrase.words, named, equal, left, sum, right, ended]⟩
  | loop start named compared integer ended =>
      have start := sign start (by simp) (by simp) fun _ h => h
      obtain ⟨guard, named⟩ := name named (by simp)
      have compared := sign compared (by simp) (by simp) fun _ h => h
      obtain ⟨bound, integer⟩ := numeral integer (by simp)
      have ended := sign ended (by simp) (by simp) fun _ h => h
      exact ⟨.loop guard bound, by simp [Phrase.words, start, named, compared, integer, ended]⟩
  | @branch _ _ _ _ _ op start named compared integer ended =>
      have start := sign start (by simp) (by simp) fun _ h => h
      obtain ⟨guard, named⟩ := name named (by simp)
      have compared := sign compared (by simp) (by simp) fun _ h => h
      obtain ⟨literal, integer⟩ := numeral integer (by simp)
      have ended := sign ended (by simp) (by simp) fun _ h => h
      exact ⟨.branch guard op literal,
        by simp [Phrase.words, start, named, compared, integer, ended]⟩

/-! ## Values -/

section

variable {token : Token} (index : Nat)

theorem Numeral.integer_iff {numeral : Numeral} (word : token.written = numeral.word)
    (value : Int64) : token.integer index = .ok value ↔ value.toInt = numeral.value := by
  rw [token.integer_ok_iff, Numeral.value, show token.text = numeral.digits from
    congrArg Prod.snd word]

theorem Numeral.integer_large {numeral : Numeral} (word : token.written = numeral.word)
    (large : maxInteger < numeral.value) : token.integer index =
      .error ⟨.literalTooLarge (String.ofList numeral.digits), token.pos index⟩ := by
  have text : token.text = numeral.digits := congrArg Prod.snd word
  rw [token.integer_eq, if_neg, Token.word, text]
  rw [text]
  exact Nat.not_le.mpr large

theorem Term.operand_iff {term : Term} (word : token.written = term.word) (value : Operand) :
    token.operand index = .ok value ↔ term.Means (token.pos index) value := by
  cases term with
  | numeral numeral =>
      have kind : token.kind = .integer := congrArg Prod.fst word
      rw [Token.operand, if_pos kind]
      constructor
      · intro read
        cases integer : token.integer index with
        | error fault =>
            rw [integer] at read
            cases read
        | ok value =>
            rw [integer] at read
            cases read
            exact .numeral ((numeral.integer_iff index word value).mp integer)
      · rintro ⟨same⟩
        rw [(numeral.integer_iff index word _).mpr same]
        rfl
  | name name =>
      have kind : token.kind = .name := congrArg Prod.fst word
      have text : token.text = name.chars := congrArg Prod.snd word
      rw [Token.operand, if_neg (by simp [kind]), Token.varRef, Token.word, text]
      constructor
      · rintro ⟨⟩
        exact .name
      · rintro ⟨⟩
        rfl

theorem Term.operand_large {numeral : Numeral} (word : token.written = numeral.word)
    (large : maxInteger < numeral.value) : token.operand index =
      .error ⟨.literalTooLarge (String.ofList numeral.digits), token.pos index⟩ := by
  have kind : token.kind = .integer := congrArg Prod.fst word
  rw [Token.operand, if_pos kind, numeral.integer_large index word large]
  rfl

end

/-! ## Phrases -/

theorem Quotation.contents_eq (text : Quotation) {token : Token}
    (word : token.written = text.word) : token.contents = text.chars := by
  have kind : token.kind = .quoted := congrArg Prod.fst word
  have spelled : token.text = '"' :: text.chars ++ ['"'] := congrArg Prod.snd word
  rw [Token.contents, if_pos kind, spelled]
  simp

theorem Term.isValue_word (term : Term) : term.word.1.isValue = true := by
  cases term <;> rfl

theorem Form.ofAction_map_iff {α : Type} {result : Except Fault α} {make : α → Action}
    {form : Form} (statement : form.isStatement = true) :
    ofAction (result.map make) = form ↔
      ∃ value, result = .ok value ∧ form = .action (make value) := by
  cases result with
  | ok value => simp [Except.map, ofAction, eq_comm]
  | error fault =>
      constructor
      · rintro rfl
        cases statement
      · rintro ⟨value, ⟨⟩, -⟩

theorem Form.ofOpener_map_iff {α : Type} {result : Except Fault α} {make : α → Opener}
    {form : Form} (statement : form.isStatement = true) :
    ofOpener (result.map make) = form ↔
      ∃ value, result = .ok value ∧ form = .opener (make value) := by
  cases result with
  | ok value => simp [Except.map, ofOpener, eq_comm]
  | error fault =>
      constructor
      · rintro rfl
        cases statement
      · rintro ⟨value, ⟨⟩, -⟩

theorem Form.ofAction_bind_iff {α β : Type} {first : Except Fault α} {second : Except Fault β}
    {make : α → β → Action} {form : Form} (statement : form.isStatement = true) :
    ofAction (first.bind fun left => second.map (make left)) = form ↔
      ∃ left, first = .ok left ∧
        ∃ right, second = .ok right ∧ form = .action (make left right) := by
  cases first with
  | ok left => simp [Except.bind, ofAction_map_iff statement]
  | error fault =>
      constructor
      · rintro rfl
        cases statement
      · rintro ⟨left, ⟨⟩, -⟩

section

variable (index : Nat) (text : Line) (col : Nat → Nat)

/-- The words of a phrase are recognised as a statement if and only if it means that statement. -/
theorem Phrase.ofCode_iff (phrase : Phrase) {form : Form} (statement : form.isStatement = true) :
    Form.ofCode index text (placed col phrase.words) = form ↔
      phrase.Means (fun n => .clamped index (col n)) form := by
  cases phrase with
  | printText quote =>
      have recognised : Recognised index (placed col (printText quote).words) _ :=
        .printText rfl rfl rfl
      rw [recognised.ofCode, quote.contents_eq rfl]
      constructor
      · rintro rfl
        exact .printText
      · rintro ⟨⟩
        rfl
  | printValue quote term =>
      have recognised : Recognised index (placed col (printValue quote term).words) _ :=
        .printValue rfl rfl rfl term.isValue_word rfl
      rw [recognised.ofCode, quote.contents_eq rfl,
        Form.ofAction_map_iff statement]
      constructor
      · rintro ⟨value, read, rfl⟩
        exact .printValue ((term.operand_iff index rfl value).mp read)
      · intro means
        cases means with
        | printValue value => exact ⟨_, (term.operand_iff index rfl _).mpr value, rfl⟩
  | declare name term =>
      have recognised : Recognised index (placed col (declare name term).words) _ :=
        .declare rfl rfl rfl term.isValue_word rfl
      rw [recognised.ofCode, Form.ofAction_map_iff statement]
      constructor
      · rintro ⟨value, read, rfl⟩
        exact .declare ((term.operand_iff index rfl value).mp read)
      · intro means
        cases means with
        | declare value => exact ⟨_, (term.operand_iff index rfl _).mpr value, rfl⟩
  | assign dest lhs rhs =>
      have recognised : Recognised index (placed col (assign dest lhs rhs).words) _ :=
        .assign rfl rfl lhs.isValue_word rfl rhs.isValue_word rfl
      rw [recognised.ofCode, Form.ofAction_bind_iff statement]
      constructor
      · rintro ⟨left, readLeft, right, readRight, rfl⟩
        exact .assign ((lhs.operand_iff index rfl left).mp readLeft)
          ((rhs.operand_iff index rfl right).mp readRight)
      · intro means
        cases means with
        | assign left right =>
            exact ⟨_, (lhs.operand_iff index rfl _).mpr left, _,
              (rhs.operand_iff index rfl _).mpr right, rfl⟩
  | loop guard bound =>
      have recognised : Recognised index (placed col (loop guard bound).words) _ :=
        .loop rfl rfl rfl rfl rfl
      rw [recognised.ofCode, Form.ofOpener_map_iff statement]
      constructor
      · rintro ⟨value, read, rfl⟩
        exact .loop ((bound.integer_iff index rfl value).mp read)
      · intro means
        cases means with
        | loop same => exact ⟨_, (bound.integer_iff index rfl _).mpr same, rfl⟩
  | branch guard op literal =>
      have recognised : Recognised index (placed col (branch guard op literal).words) _ :=
        .branch rfl rfl rfl rfl rfl
      rw [recognised.ofCode, Form.ofOpener_map_iff statement]
      constructor
      · rintro ⟨value, read, rfl⟩
        exact .branch ((literal.integer_iff index rfl value).mp read)
      · intro means
        cases means with
        | branch same => exact ⟨_, (literal.integer_iff index rfl _).mpr same, rfl⟩

theorem Numeral.exists_value {numeral : Numeral} (small : numeral.value ≤ maxInteger) :
    ∃ value : Int64, value.toInt = numeral.value := by
  rw [maxInteger] at small
  exact ⟨Int64.ofNat numeral.value, Int64.toInt_ofNat_of_lt (by omega)⟩

/-- A term means something if it is no numeral that is too large. -/
theorem Term.exists_means {term : Term} (pos : Pos)
    (small : ∀ numeral : Numeral, term.word = numeral.word → numeral.value ≤ maxInteger) :
    ∃ value, term.Means pos value := by
  cases term with
  | numeral numeral =>
      obtain ⟨value, same⟩ := numeral.exists_value (small numeral rfl)
      exact ⟨_, .numeral same⟩
  | name name => exact ⟨_, .name⟩

/-- The leftmost numeral that is too large is the fault of a phrase. -/
theorem Phrase.TooLarge.ofCode {phrase : Phrase} {n : Nat} {numeral : Numeral}
    (tooLarge : phrase.TooLarge n numeral) :
    Form.ofCode index text (placed col phrase.words) =
      phrase.refuse ⟨.literalTooLarge (String.ofList numeral.digits), .clamped index (col n)⟩ := by
  obtain ⟨word, large, leftmost⟩ := tooLarge
  have integer {other : Numeral} (same : other.word = numeral.word) (col : Nat) :
      Token.integer ⟨other.word.1, other.word.2, col⟩ index =
        .error ⟨.literalTooLarge (String.ofList numeral.digits), .clamped index col⟩ :=
    numeral.integer_large index same large
  have operand {term : Term} (same : term.word = numeral.word) (col : Nat) :
      Token.operand ⟨term.word.1, term.word.2, col⟩ index =
        .error ⟨.literalTooLarge (String.ofList numeral.digits), .clamped index col⟩ :=
    Term.operand_large index same large
  cases phrase with
  | printText quote => rcases n with _ | _ | _ | n <;> cases word
  | printValue quote term =>
      have recognised : Recognised index (placed col (printValue quote term).words) _ :=
        .printValue rfl rfl rfl term.isValue_word rfl
      rcases n with _ | _ | _ | _ | _ | n
      case succ.succ.succ.zero =>
        rw [recognised.ofCode, operand (Option.some.inj word)]
        rfl
      all_goals cases word
  | declare name term =>
      have recognised : Recognised index (placed col (declare name term).words) _ :=
        .declare rfl rfl rfl term.isValue_word rfl
      rcases n with _ | _ | _ | _ | _ | n
      case succ.succ.succ.zero =>
        rw [recognised.ofCode, operand (Option.some.inj word)]
        rfl
      all_goals cases word
  | assign dest lhs rhs =>
      have recognised : Recognised index (placed col (assign dest lhs rhs).words) _ :=
        .assign rfl rfl lhs.isValue_word rfl rhs.isValue_word rfl
      rcases n with _ | _ | _ | _ | _ | _ | n
      case succ.succ.zero =>
        rw [recognised.ofCode, operand (Option.some.inj word)]
        rfl
      case succ.succ.succ.succ.zero =>
        obtain ⟨value, means⟩ := Term.exists_means (.clamped index (col 2)) fun other same =>
          leftmost 2 (by omega) other (congrArg some same)
        have left : Token.operand ⟨lhs.word.1, lhs.word.2, col 2⟩ index = .ok value :=
          (lhs.operand_iff index rfl value).mpr means
        rw [recognised.ofCode, left, operand (Option.some.inj word)]
        rfl
      all_goals cases word
  | loop guard bound =>
      have recognised : Recognised index (placed col (loop guard bound).words) _ :=
        .loop rfl rfl rfl rfl rfl
      rcases n with _ | _ | _ | _ | _ | n
      case succ.succ.succ.zero =>
        rw [recognised.ofCode, integer (Option.some.inj word)]
        rfl
      all_goals cases word
  | branch guard op literal =>
      have recognised : Recognised index (placed col (branch guard op literal).words) _ :=
        .branch rfl rfl rfl rfl rfl
      rcases n with _ | _ | _ | _ | _ | n
      case succ.succ.succ.zero =>
        rw [recognised.ofCode, integer (Option.some.inj word)]
        rfl
      all_goals cases word

end

/-! ## Lines -/

/-- A line is read by the grammar of phrases. -/
structure ReadsPhrases (index : Nat) (line : Line) : Prop where
  /-- It is a statement if and only if it spells a phrase that means the statement. -/
  accepts : ∀ form, (Form.ofLine index line = form ∧ form.isStatement = true) ↔
    ∃ phrase gap, Phrase.Spells phrase gap line ∧
      phrase.Means (fun n => .clamped index (columnOf gap phrase.words n)) form
  /-- If it spells a phrase with a numeral that is too large, the leftmost one is its fault. -/
  refuses : ∀ phrase gap n numeral, Phrase.Spells phrase gap line →
    phrase.TooLarge n numeral → Form.ofLine index line = phrase.refuse
      ⟨.literalTooLarge (String.ofList numeral.digits),
        .clamped index (columnOf gap phrase.words n)⟩

/-- The form of a line that spells a phrase is that of the words of the phrase. -/
theorem Phrase.Spells.ofLine {phrase : Phrase} {gap : Nat → List Char} {line : Line}
    (spells : phrase.Spells gap line) (oneLine : '\n' ∉ line) (index : Nat) :
    Form.ofLine index line =
      Form.ofCode index line (placed (columnOf gap phrase.words) phrase.words) := by
  have code := spells.scanCode oneLine
  rw [Form.ofLine_of_code, code]
  rw [code]
  cases phrase <;> exact List.cons_ne_nil _ _

/-- A line is a statement if and only if it spells a phrase whose numerals are small enough. -/
theorem reads_phrases {line : Line} (oneLine : '\n' ∉ line) (index : Nat) :
    ReadsPhrases index line where
  accepts form := by
    constructor
    · rintro ⟨rfl, statement⟩
      have code : scanCode line ≠ [] := by
        intro quiet
        rcases Form.ofLine_of_quiet quiet index with blank | comment
        · rw [blank] at statement
          cases statement
        · rw [comment] at statement
          cases statement
      have statement' := statement
      rw [Form.ofLine_of_code code] at statement'
      obtain ⟨phrase, words⟩ := (Form.recognised_of_isStatement statement').exists_phrase
        fun token mem => isWord_of_mem_scanCode mem
      obtain ⟨gap, spells⟩ := exists_spells words
      exact ⟨phrase, gap, spells,
        (phrase.ofCode_iff index line _ statement).mp (spells.ofLine oneLine index).symm⟩
    · rintro ⟨phrase, gap, spells, means⟩
      rw [spells.ofLine oneLine index]
      exact ⟨(phrase.ofCode_iff index line _ means.isStatement).mpr means, means.isStatement⟩
  refuses phrase gap n numeral spells tooLarge := by
    rw [spells.ofLine oneLine index]
    exact tooLarge.ofCode index line _

/-- A loop whose words stand as close as they may, with a quote in its comment. -/
def crammedLoop : Line :=
  "\twhile total<007\x7b//\"".toList

theorem reads_phrases_crammedLoop : '\n' ∉ crammedLoop ∧ ReadsPhrases 0 crammedLoop := by
  have oneLine : '\n' ∉ crammedLoop := by decide
  exact ⟨oneLine, reads_phrases oneLine 0⟩

/-- Signs and words that run into each other are one token. Of two numerals that are too large the
left one is the fault. -/
example :
    Form.ofLine 0 "if x>==1\x7b".toList =
        .opener (.refused ⟨.unknownForm "if x>==1\x7b", ⟨0, 0⟩⟩) ∧
      Form.ofLine 0 "whilex<9\x7b".toList =
        .opener (.refused ⟨.unknownForm "whilex<9\x7b", ⟨0, 0⟩⟩) ∧
      Form.ofLine 0 "x=9223372036854775808+9223372036854775809;".toList =
        .action (.invalid ⟨.literalTooLarge "9223372036854775808", ⟨0, 2⟩⟩) := by
  decide +kernel

end LineScript
