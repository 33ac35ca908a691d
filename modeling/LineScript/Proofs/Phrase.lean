import Mathlib.Data.List.Chain
import LineScript.Proofs.LongestMatch
import LineScript.Proofs.Interleaving
import LineScript.Proofs.Written

/-!
# Phrases and how they are laid out

A phrase is a statement of one line or the head of a block as it is spelled: names, texts and
numerals of any length, without a word about values. Its words stand on a line in order, with gaps
before, between and behind them, and perhaps a comment at the end. `Phrase.Spells` says this of the
characters of the line. Only between a reserved word and a name the gap must not be empty.

The tokens of a line that spells a phrase are the words of the phrase, in the columns in which they
stand. Conversely the code of every line is laid out in this way, so a line whose tokens are the
words of a phrase spells it.
-/

namespace LineScript

/-- A number as it is spelled, in any number of digits. -/
structure Numeral where
  digits : List Char
  nonempty : digits ≠ []
  decimal : ∀ c ∈ digits, c.isDigit = true

/-- The text of a quotation. -/
structure Quotation where
  chars : List Char
  plain : ∀ c ∈ chars, c ≠ '"' ∧ c ≠ '\n'

/-- A numeral or a name. -/
inductive Term where
  | numeral (numeral : Numeral)
  | name (name : Written.Name)

/-- A statement of one line or the head of a block, as it is spelled. -/
inductive Phrase where
  | printText (text : Quotation)
  | printValue (text : Quotation) (value : Term)
  | declare (name : Written.Name) (value : Term)
  | assign (dest : Written.Name) (lhs rhs : Term)
  | loop (guard : Written.Name) (bound : Numeral)
  | branch (guard : Written.Name) (op : Comparison) (literal : Numeral)

/-! ## Words -/

def Numeral.word (numeral : Numeral) : TokenKind × List Char :=
  (.integer, numeral.digits)

def Quotation.word (text : Quotation) : TokenKind × List Char :=
  (.quoted, '"' :: text.chars ++ ['"'])

def Written.Name.word (name : Written.Name) : TokenKind × List Char :=
  (.name, name.chars)

def Term.word : Term → TokenKind × List Char
  | .numeral value => value.word
  | .name value => value.word

/-- The word of a kind that is written in one way. -/
def TokenKind.word (kind : TokenKind) : TokenKind × List Char :=
  (kind, kind.label.toList)

/-- The words of a phrase, in order. -/
def Phrase.words : Phrase → List (TokenKind × List Char)
  | printText text =>
    [TokenKind.word (.keyword .print), text.word, TokenKind.word .semicolon]
  | printValue text value =>
    [TokenKind.word (.keyword .print), text.word, TokenKind.word .plus, value.word,
      TokenKind.word .semicolon]
  | declare name value =>
    [TokenKind.word (.keyword .declare), name.word, TokenKind.word .equals, value.word,
      TokenKind.word .semicolon]
  | assign dest lhs rhs =>
    [dest.word, TokenKind.word .equals, lhs.word, TokenKind.word .plus, rhs.word,
      TokenKind.word .semicolon]
  | loop guard bound =>
    [TokenKind.word (.keyword .loop), guard.word, TokenKind.word (.comparison .lt), bound.word,
      TokenKind.word .openBrace]
  | branch guard op literal =>
    [TokenKind.word (.keyword .branch), guard.word, TokenKind.word (.comparison op), literal.word,
      TokenKind.word .openBrace]

/-- Words with gaps in front of them: `gap n` stands before the word number `n`. -/
def spacedBy (gap : Nat → List Char) : List (TokenKind × List Char) → List Lexeme
  | [] => []
  | word :: rest => ⟨gap 0, word.1, word.2⟩ :: spacedBy (fun n => gap (n + 1)) rest

/-- How many characters stand before the word number `n`. -/
def columnOf (gap : Nat → List Char) (words : List (TokenKind × List Char)) (n : Nat) : Nat :=
  (Lexeme.write (spacedBy gap (words.take n))).length + (gap n).length

/-- Between a reserved word and a name the gap is not empty. -/
def KeepsApart (gap : Nat → List Char) (words : List (TokenKind × List Char)) : Prop :=
  ∀ n word, words[n]?.map Prod.fst = some (.keyword word) →
    words[n + 1]?.map Prod.fst = some .name → gap (n + 1) ≠ []

/-- A comment, or nothing. -/
def IsRemark (text : List Char) : Prop :=
  text = [] ∨ ∃ more, text = '/' :: '/' :: more

/-- A line spells a phrase: it is the words of the phrase in order, with gaps, and then perhaps a
comment. -/
structure Phrase.Spells (phrase : Phrase) (gap : Nat → List Char) (line : Line) : Prop where
  blank : ∀ n, ∀ c ∈ gap n, isGap c = true
  apart : KeepsApart gap phrase.words
  line : ∃ remark, IsRemark remark ∧
    line = Lexeme.write (spacedBy gap phrase.words) ++ (gap phrase.words.length ++ remark)

/-! ## Words that may stand beside each other -/

/-- A word that is spelled as its kind says, and no comment. -/
structure IsWord (word : TokenKind × List Char) : Prop where
  matched : word.1.Matches word.2
  free : word.1 = .name → Keyword.ofChars? word.2 = none
  code : word.1 ≠ .comment

theorem Numeral.isWord (numeral : Numeral) : IsWord numeral.word where
  matched := ⟨numeral.nonempty, numeral.decimal⟩
  free := TokenKind.noConfusion
  code := TokenKind.noConfusion

theorem Quotation.isWord (text : Quotation) : IsWord text.word where
  matched := ⟨text.chars, rfl, text.plain⟩
  free := TokenKind.noConfusion
  code := TokenKind.noConfusion

theorem Written.Name.isWord (name : Written.Name) : IsWord name.word where
  matched := ⟨name.first, name.more, rfl, name.start, name.rest⟩
  free _ := name.free
  code := TokenKind.noConfusion

theorem Term.isWord (term : Term) : IsWord term.word := by
  cases term with
  | numeral numeral => exact numeral.isWord
  | name name => exact name.isWord

theorem isWord_keyword (word : Keyword) : IsWord (TokenKind.word (.keyword word)) :=
  ⟨rfl, TokenKind.noConfusion, TokenKind.noConfusion⟩

theorem isWord_comparison (op : Comparison) : IsWord (TokenKind.word (.comparison op)) :=
  ⟨rfl, TokenKind.noConfusion, TokenKind.noConfusion⟩

theorem Phrase.isWord_of_mem (phrase : Phrase) : ∀ word ∈ phrase.words, IsWord word := by
  have equals : IsWord (TokenKind.word .equals) := ⟨rfl, by decide, by decide⟩
  have plus : IsWord (TokenKind.word .plus) := ⟨rfl, by decide, by decide⟩
  have stop : IsWord (TokenKind.word .semicolon) := ⟨rfl, by decide, by decide⟩
  have brace : IsWord (TokenKind.word .openBrace) := ⟨rfl, by decide, by decide⟩
  cases phrase with
  | printText text => simp [words, isWord_keyword, text.isWord, stop]
  | printValue text value => simp [words, isWord_keyword, text.isWord, plus, value.isWord, stop]
  | declare name value => simp [words, isWord_keyword, name.isWord, equals, value.isWord, stop]
  | assign dest lhs rhs => simp [words, dest.isWord, equals, lhs.isWord, plus, rhs.isWord, stop]
  | loop guard bound =>
      simp [words, isWord_keyword, guard.isWord, isWord_comparison, bound.isWord, brace]
  | branch guard op literal =>
      simp [words, isWord_keyword, guard.isWord, isWord_comparison, literal.isWord, brace]

/-- A word that may stand right behind another one: it does not lengthen it, or a gap is asked
for. -/
def Follows (first second : TokenKind × List Char) : Prop :=
  ((∃ word, first.1 = .keyword word) ∧ second.1 = .name) ∨ Stops first.1.grows second.2

theorem Written.Name.follows_keyword (name : Written.Name) (word : Keyword) :
    Follows (TokenKind.word (.keyword word)) name.word :=
  .inl ⟨⟨word, rfl⟩, rfl⟩

theorem Numeral.stops_equals (numeral : Numeral) : Stops (fun c => c = '=') numeral.digits := by
  intro c first
  have digit := numeral.decimal c (List.mem_of_mem_head? first)
  simp only [decide_eq_false_iff_not]
  rintro rfl
  cases digit

theorem Written.Name.stops_equals (name : Written.Name) : Stops (fun c => c = '=') name.chars := by
  refine stops_cons ?_ name.more
  have start := name.start
  simp only [decide_eq_false_iff_not]
  intro sign
  rw [sign] at start
  cases start

theorem Numeral.follows_comparison (numeral : Numeral) (op : Comparison) :
    Follows (TokenKind.word (.comparison op)) numeral.word :=
  .inr numeral.stops_equals

theorem Term.follows_equals (term : Term) : Follows (TokenKind.word .equals) term.word := by
  cases term with
  | numeral numeral => exact .inr numeral.stops_equals
  | name name => exact .inr name.stops_equals

/-- A sign may follow a name. -/
theorem Written.Name.follows (name : Written.Name) {word : TokenKind × List Char}
    (sign : Stops isNameChar word.2) : Follows name.word word :=
  .inr sign

theorem Numeral.follows (numeral : Numeral) {word : TokenKind × List Char}
    (sign : Stops isNameChar word.2) : Follows numeral.word word :=
  .inr (stops_digits sign)

theorem Term.follows (term : Term) {word : TokenKind × List Char}
    (sign : Stops isNameChar word.2) : Follows term.word word := by
  cases term with
  | numeral numeral => exact numeral.follows sign
  | name name => exact name.follows sign

theorem stops_comparison (op : Comparison) :
    Stops isNameChar (TokenKind.word (.comparison op)).2 := by
  cases op <;> exact stops_cons rfl _

/-- Each word of a phrase may stand right behind the one before. -/
theorem Phrase.isChain_words (phrase : Phrase) : phrase.words.IsChain Follows := by
  have text (text : Quotation) : Follows (TokenKind.word (.keyword .print)) text.word :=
    .inr (stops_cons rfl _)
  have behindText (text : Quotation) (word : TokenKind × List Char) : Follows text.word word :=
    .inr fun _ _ => rfl
  have behindPlus (word : TokenKind × List Char) : Follows (TokenKind.word .plus) word :=
    .inr fun _ _ => rfl
  have equals : Stops isNameChar (TokenKind.word .equals).2 := stops_cons rfl _
  have plus : Stops isNameChar (TokenKind.word .plus).2 := stops_cons rfl _
  have semicolon : Stops isNameChar (TokenKind.word .semicolon).2 := stops_cons rfl _
  have brace : Stops isNameChar (TokenKind.word .openBrace).2 := stops_cons rfl _
  cases phrase with
  | printText quote =>
      exact .cons_cons (text quote) (.cons_cons (behindText quote _) (.singleton _))
  | printValue quote value =>
      exact .cons_cons (text quote) (.cons_cons (behindText quote _)
        (.cons_cons (behindPlus _) (.cons_cons (value.follows semicolon) (.singleton _))))
  | declare name value =>
      exact .cons_cons (name.follows_keyword _) (.cons_cons (name.follows equals)
        (.cons_cons value.follows_equals (.cons_cons (value.follows semicolon) (.singleton _))))
  | assign dest lhs rhs =>
      exact .cons_cons (dest.follows equals) (.cons_cons lhs.follows_equals
        (.cons_cons (lhs.follows plus) (.cons_cons (behindPlus _)
          (.cons_cons (rhs.follows semicolon) (.singleton _)))))
  | loop guard bound =>
      exact .cons_cons (guard.follows_keyword _) (.cons_cons (guard.follows (stops_comparison _))
        (.cons_cons (bound.follows_comparison _) (.cons_cons (bound.follows brace) (.singleton _))))
  | branch guard op literal =>
      exact .cons_cons (guard.follows_keyword _) (.cons_cons (guard.follows (stops_comparison _))
        (.cons_cons (literal.follows_comparison _)
          (.cons_cons (literal.follows brace) (.singleton _))))

/-! ## From words to tokens -/

/-- No gap lengthens a word of code. -/
theorem TokenKind.grows_of_isGap {kind : TokenKind} (code : kind ≠ .comment) {c : Char}
    (blank : isGap c = true) : kind.grows c = false := by
  have sign : decide (c = '=') = false := by
    rcases gap_cases blank with rfl | rfl | rfl <;> rfl
  cases kind with
  | keyword _ => exact isNameChar_of_isGap blank
  | name => exact isNameChar_of_isGap blank
  | integer => exact isDigit_of_isGap blank
  | comparison _ => exact sign
  | equals => exact sign
  | comment => exact absurd rfl code
  | _ => rfl

theorem Phrase.grows_last (phrase : Phrase) :
    ∀ word ∈ phrase.words.getLast?, ∀ c, word.1.grows c = false := by
  intro word last c
  cases phrase <;> cases last <;> rfl

/-- Where a gap is, or a word that may stand there without one, nothing lengthens the word
before. -/
theorem stops_of_follows {first second : TokenKind × List Char} {gap : List Char}
    (code : first.1 ≠ .comment) (follows : Follows first second) (nonempty : second.2 ≠ [])
    (blank : ∀ c ∈ gap, isGap c = true)
    (apart : ∀ word, first.1 = .keyword word → second.1 = .name → gap ≠ []) (rest : List Char) :
    Stops first.1.grows (gap ++ second.2 ++ rest) := by
  cases gap with
  | cons c gap => exact stops_cons (TokenKind.grows_of_isGap code (blank c List.mem_cons_self)) _
  | nil =>
      rcases follows with ⟨⟨word, kind⟩, name⟩ | stops
      · exact absurd rfl (apart word kind name)
      · intro c head
        rw [List.nil_append, List.head?_append_of_ne_nil _ nonempty] at head
        exact stops c head

/-- Words that stand on a line with gaps between them end where they should, if what follows does
not lengthen the last of them. -/
theorem laid_spacedBy {words : List (TokenKind × List Char)} {gap : Nat → List Char}
    {last : List Char} {rest : List Lexeme} (isWord : ∀ word ∈ words, IsWord word)
    (chain : words.IsChain Follows) (blank : ∀ n, ∀ c ∈ gap n, isGap c = true)
    (apart : KeepsApart gap words) (ended : ∀ word ∈ words.getLast?, ∀ c, word.1.grows c = false)
    (behind : Laid last rest) : Laid last (spacedBy gap words ++ rest) := by
  induction words generalizing gap with
  | nil => exact behind
  | cons word words ih =>
      obtain ⟨matched, free, code⟩ := isWord word List.mem_cons_self
      refine ⟨matched.ends (blank 0) free ?_, ?_⟩
      · cases words with
        | nil => exact fun c _ => ended word rfl c
        | cons second words =>
            have nonempty : second.2 ≠ [] := by
              obtain ⟨c, more, text, -⟩ :=
                (isWord second (by simp)).matched.exists_shape
              exact text ▸ List.cons_ne_nil c more
            change Stops _ (gap 1 ++ second.2 ++
              Lexeme.write (spacedBy (fun n => gap (n + 1 + 1)) words ++ rest) ++ last)
            rw [List.append_assoc]
            exact stops_of_follows code chain.rel nonempty (blank 1)
              (fun keyword kind name => apart 0 keyword (by simp [kind]) (by simp [name])) _
      · refine ih (fun other mem => isWord other (List.mem_cons_of_mem _ mem)) chain.tail
          (fun n => blank (n + 1)) (fun n => apart (n + 1)) ?_
        intro other last
        refine ended other ?_
        rw [List.getLast?_cons, last]
        rfl

/-- The tokens of words, of which the word number `n` stands in column `col n`. -/
def placed (col : Nat → Nat) : List (TokenKind × List Char) → List Token
  | [] => []
  | word :: rest => ⟨word.1, word.2, col 0⟩ :: placed (fun n => col (n + 1)) rest

theorem columnOf_succ (gap : Nat → List Char) (word : TokenKind × List Char)
    (words : List (TokenKind × List Char)) (n : Nat) :
    columnOf gap (word :: words) (n + 1) =
      (gap 0).length + word.2.length + columnOf (fun n => gap (n + 1)) words n := by
  simp only [columnOf, List.take_succ_cons, spacedBy, Lexeme.write, List.length_append]
  omega

/-- The words are the tokens, in the columns in which they stand. -/
theorem tokens_spacedBy (start : Nat) (gap : Nat → List Char)
    (words : List (TokenKind × List Char)) :
    Lexeme.tokens start (spacedBy gap words) =
      placed (fun n => start + columnOf gap words n) words := by
  induction words generalizing start gap with
  | nil => rfl
  | cons word words ih =>
      have first : columnOf gap (word :: words) 0 = (gap 0).length := by
        simp [columnOf, spacedBy, Lexeme.write]
      rw [spacedBy, Lexeme.tokens, ih, placed, first]
      congr 2
      funext n
      rw [columnOf_succ]
      dsimp only
      omega

theorem kind_of_mem_spacedBy {words : List (TokenKind × List Char)}
    (isWord : ∀ word ∈ words, IsWord word) (gap : Nat → List Char) :
    ∀ lexeme ∈ spacedBy gap words, lexeme.kind ≠ .comment := by
  induction words generalizing gap with
  | nil =>
      intro lexeme mem
      cases mem
  | cons word words ih =>
      intro lexeme mem
      rcases List.mem_cons.mp mem with rfl | behind
      · exact (isWord word List.mem_cons_self).code
      · exact ih (fun other mem => isWord other (List.mem_cons_of_mem _ mem)) _ lexeme behind

/-- A gap and a remark are no code. -/
theorem exists_laid_remark {gap remark : List Char} (blank : ∀ c ∈ gap, isGap c = true)
    (isRemark : IsRemark remark) (oneLine : '\n' ∉ remark) :
    ∃ rest last, Laid last rest ∧ Lexeme.write rest ++ last = gap ++ remark ∧
      rest.takeWhile (fun lexeme => lexeme.kind ≠ .comment) = [] := by
  rcases isRemark with rfl | ⟨more, rfl⟩
  · exact ⟨[], gap, blank, by rw [List.append_nil]; rfl, rfl⟩
  · have plain : ∀ c ∈ more, c ≠ '\n' := by
      rintro c mem rfl
      exact oneLine (List.mem_cons_of_mem _ (List.mem_cons_of_mem _ mem))
    refine ⟨[⟨gap, .comment, '/' :: '/' :: more⟩], [], ⟨?_, by simp [Laid]⟩, ?_, rfl⟩
    · exact Lexeme.ends_comment blank plain (stops_nil _)
    · rw [Lexeme.write, Lexeme.write, List.append_nil, List.append_nil]

/-- A line that spells a phrase has the words of the phrase as its code. -/
theorem Phrase.Spells.scanCode {phrase : Phrase} {gap : Nat → List Char} {line : Line}
    (spells : phrase.Spells gap line) (oneLine : '\n' ∉ line) :
    scanCode line = placed (columnOf gap phrase.words) phrase.words := by
  obtain ⟨blank, apart, remark, isRemark, rfl⟩ := spells
  have isWord := phrase.isWord_of_mem
  have plain : '\n' ∉ remark := fun mem => oneLine (by simp [mem])
  obtain ⟨rest, last, laid, written, quiet⟩ :=
    exists_laid_remark (blank phrase.words.length) isRemark plain
  have whole : Laid last (spacedBy gap phrase.words ++ rest) :=
    laid_spacedBy isWord phrase.isChain_words blank apart phrase.grows_last laid
  have code : (spacedBy gap phrase.words ++ rest).takeWhile
      (fun lexeme => lexeme.kind ≠ .comment) = spacedBy gap phrase.words := by
    rw [List.takeWhile_append_of_pos, quiet, List.append_nil]
    exact fun lexeme mem => decide_eq_true (kind_of_mem_spacedBy isWord gap lexeme mem)
  rw [← written, ← List.append_assoc, ← Lexeme.write_append, LineScript.scanCode, scan_laid whole,
    Lexeme.codeTokens_tokens, code, tokens_spacedBy]
  simp

/-! ## From tokens to words -/

/-- The gaps of lexemes, and behind the last of them the gap `final`. -/
def gapsOf (lexemes : List Lexeme) (final : List Char) (n : Nat) : List Char :=
  (lexemes[n]?.map Lexeme.gap).getD final

theorem spacedBy_map_written (lexemes : List Lexeme) (final : List Char) :
    spacedBy (gapsOf lexemes final) (lexemes.map Lexeme.written) = lexemes := by
  induction lexemes with
  | nil => rfl
  | cons lexeme rest ih => exact congrArg (List.cons lexeme) ih

/-- A lexeme that ends where it does is a longest match there. -/
theorem Lexeme.Ends.taken {lexeme : Lexeme} {rest : List Char} (ends : lexeme.Ends rest) :
    Token.Taken ⟨lexeme.kind, lexeme.text, 0⟩ (lexeme.text ++ rest) := by
  obtain ⟨c, more, text, -, token⟩ := ends.token
  have taken := taken_tokenAt c (more ++ rest) 0
  rw [token, List.take_left] at taken
  rw [text]
  exact taken

/-- No more of a word comes behind it. -/
theorem Lexeme.Ends.stops_of_keyword {lexeme : Lexeme} {rest : List Char} {word : Keyword}
    (ends : lexeme.Ends rest) (kind : lexeme.kind = .keyword word) : Stops isNameChar rest := by
  have taken := ends.taken.longest (by rw [kind]; exact TokenKind.noConfusion)
  have spelled := taken.matched
  rw [kind] at spelled
  obtain ⟨c, more, spelling, start, all, -⟩ := word.exists_spelling
  intro d first
  obtain ⟨behind, rfl⟩ := List.head?_eq_some_iff.mp first
  -- Otherwise the word with one more character would be a name.
  cases shape : isNameChar d with
  | false => rfl
  | true =>
      have longer : TokenKind.name.Matches (lexeme.text ++ [d]) := by
        refine ⟨c, more ++ [d], ?_, start, ?_⟩
        · rw [show lexeme.text = c :: more from Eq.trans spelled spelling, List.cons_append]
        · intro e mem
          rcases List.mem_append.mp mem with inside | last
          · exact all e inside
          · exact List.mem_singleton.mp last ▸ shape
      have bound := taken.longest .name _ longer ⟨behind, by simp⟩
      rw [List.length_append, List.length_singleton] at bound
      exact absurd bound (Nat.not_succ_le_self _)

theorem nameChar_of_isNameStart {c : Char} (start : isNameStart c = true) :
    isNameChar c = true := by
  rw [isNameStart, Bool.or_eq_true] at start
  rw [isNameChar, Char.isAlphanum, Bool.or_eq_true, Bool.or_eq_true]
  exact start.imp_left .inl

/-- Between a reserved word and a name behind it there is a gap. -/
theorem Laid.keepsApart {lexemes rest : List Lexeme} {last : List Char}
    (laid : Laid last (lexemes ++ rest)) (final : List Char) :
    KeepsApart (gapsOf lexemes final) (lexemes.map Lexeme.written) := by
  induction lexemes with
  | nil =>
      intro n word keyword
      cases keyword
  | cons lexeme lexemes ih =>
      intro n word keyword name
      cases n with
      | succ n => exact ih laid.2 n word keyword name
      | zero =>
          cases lexemes with
          | nil => cases name
          | cons second lexemes =>
              have kind : lexeme.kind = .keyword word := Option.some.inj keyword
              have named : second.kind = .name := Option.some.inj name
              have matched := (laid.2.1.taken.longest (by simp [named])).matched
              change second.gap ≠ []
              intro none
              rw [named] at matched
              obtain ⟨c, more, text, start, -⟩ := matched
              have stops := laid.1.stops_of_keyword kind
              change Stops isNameChar
                (second.gap ++ second.text ++ Lexeme.write (lexemes ++ rest) ++ last) at stops
              rw [none, show second.text = c :: more from text] at stops
              exact absurd ((stops c rfl).symm.trans (nameChar_of_isNameStart start))
                Bool.noConfusion

theorem Laid.of_append {lexemes rest : List Lexeme} {last : List Char}
    (laid : Laid last (lexemes ++ rest)) : Laid last rest := by
  induction lexemes with
  | nil => exact laid
  | cons lexeme lexemes ih => exact ih laid.2

/-- What is laid out behind the code is a gap and a remark. -/
theorem Laid.exists_remark {rest : List Lexeme} {last : List Char} (laid : Laid last rest)
    (quiet : ∀ lexeme ∈ rest.head?, lexeme.kind = .comment) :
    ∃ gap remark, (∀ c ∈ gap, isGap c = true) ∧ IsRemark remark ∧
      Lexeme.write rest ++ last = gap ++ remark := by
  cases rest with
  | nil => exact ⟨last, [], laid, .inl rfl, by rw [List.append_nil]; rfl⟩
  | cons lexeme rest =>
      have comment := quiet lexeme rfl
      have matched := (laid.1.taken.longest (by simp [comment])).matched
      rw [comment] at matched
      obtain ⟨inside, text, -⟩ := matched
      refine ⟨lexeme.gap, lexeme.text ++ (Lexeme.write rest ++ last), laid.1.gap, .inr ?_, ?_⟩
      · exact ⟨_, congrArg (· ++ (Lexeme.write rest ++ last)) text⟩
      · rw [Lexeme.write, List.append_assoc, List.append_assoc]

/-- A line whose code is the words of a phrase spells it. -/
theorem exists_spells {phrase : Phrase} {line : Line}
    (words : (scanCode line).map Token.written = phrase.words) :
    ∃ gap, phrase.Spells gap line := by
  obtain ⟨lexemes, last, laid, rfl, tokens⟩ := exists_laid line
  let isCode : Lexeme → Bool := fun lexeme => lexeme.kind ≠ .comment
  have quiet : ∀ lexeme ∈ (lexemes.dropWhile isCode).head?, lexeme.kind = .comment := by
    intro lexeme first
    have stop := List.head?_dropWhile_not isCode lexemes
    rw [first] at stop
    simpa [isCode] using stop
  rw [scanCode, ← tokens, Lexeme.codeTokens_tokens, Lexeme.map_written_tokens] at words
  rw [← List.takeWhile_append_dropWhile (p := isCode) (l := lexemes)] at laid ⊢
  obtain ⟨final, remark, blank, isRemark, written⟩ := laid.of_append.exists_remark quiet
  refine ⟨gapsOf (lexemes.takeWhile isCode) final, ?_, ?_, remark, isRemark, ?_⟩
  · intro n c mem
    rw [gapsOf] at mem
    cases here : (lexemes.takeWhile isCode)[n]? with
    | none =>
        rw [here] at mem
        exact blank c mem
    | some lexeme =>
        rw [here] at mem
        exact laid.gap lexeme (List.mem_append_left _ (List.mem_of_getElem? here)) c mem
  · rw [← words]
    exact laid.keepsApart final
  · have behind : gapsOf (lexemes.takeWhile isCode) final phrase.words.length = final := by
      rw [← words, List.length_map, gapsOf, List.getElem?_eq_none (Nat.le_refl _)]
      rfl
    rw [behind, ← words, spacedBy_map_written, ← written, Lexeme.write_append, List.append_assoc]

end LineScript
