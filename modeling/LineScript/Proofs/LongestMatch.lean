import LineScript.Proofs.Interleaving

/-!
# Tokens are longest matches

`TokenKind.Matches` gives the pattern of each kind of token, without regard to how a line is cut.
Several patterns may match where a token begins: a reserved word is shaped like a name, and a
comparison may begin like an assignment. `scan_longest` says which match is taken. It is the longest
one of all patterns, and of the two that match a reserved word it is the word. Where no pattern
matches, the token is stray: an opening quote with the rest of its line, or one character. Only gaps
are in no token.

What a match looks like is decided by its first character. `Shape` lists the possibilities, so the
maximality of a token is read off the shapes that begin as it does.
-/

namespace LineScript

/-- The texts that match the pattern of a kind of token. The kinds that are not listed are written
in one way, which is their label. -/
def TokenKind.Matches : TokenKind → List Char → Prop
  | .integer, text => text ≠ [] ∧ ∀ c ∈ text, c.isDigit = true
  | .quoted, text => ∃ inside, text = '"' :: inside ++ ['"'] ∧ ∀ c ∈ inside, c ≠ '"' ∧ c ≠ '\n'
  | .name, text => ∃ first more, text = first :: more ∧ isNameStart first = true ∧
      ∀ c ∈ more, isNameChar c = true
  | .comment, text => ∃ inside, text = '/' :: '/' :: inside ∧ ∀ c ∈ inside, c ≠ '\n'
  | .stray, _ => False
  | kind, text => text = kind.label.toList

/-- A token that is the longest match of all patterns at the start of a text. -/
structure Token.IsLongest (token : Token) (input : List Char) : Prop where
  starts : token.text <+: input
  matched : token.kind.Matches token.text
  longest : ∀ kind text, TokenKind.Matches kind text → text <+: input →
    text.length ≤ token.text.length
  reserved : ∀ word : Keyword, token.text = word.spelling.toList → token.kind = .keyword word
  named : TokenKind.name.Matches token.text →
    (∀ word : Keyword, token.text ≠ word.spelling.toList) → token.kind = .name

/-- A token at the start of a text that no pattern matches there. -/
structure Token.IsStray (token : Token) (input : List Char) : Prop where
  unmatched : ∀ kind text, TokenKind.Matches kind text → ¬ text <+: input
  extent : (∃ rest, input = '"' :: rest ∧ token.text = '"' :: rest.takeWhile fun c => c ≠ '\n') ∨
    ∃ c rest, input = c :: rest ∧ token.text = [c]

/-! ## Shapes -/

/-- The signs, as they are written. -/
def signs : List (List Char) :=
  [['='], ['>'], ['<'], ['+'], [';'], ['\x7b'], ['\x7d'], ['('], [')'],
    ['=', '='], ['!', '='], ['>', '='], ['<', '=']]

/-- What stands behind the first character of a match. -/
inductive Shape : Char → List Char → Prop
  | word {c more} (start : isNameStart c = true) (all : ∀ d ∈ more, isNameChar d = true) :
      Shape c more
  | number {c more} (digit : c.isDigit = true) (all : ∀ d ∈ more, d.isDigit = true) :
      Shape c more
  | quote {inside} (plain : ∀ d ∈ inside, d ≠ '"' ∧ d ≠ '\n') : Shape '"' (inside ++ ['"'])
  | comment {inside} (plain : ∀ d ∈ inside, d ≠ '\n') : Shape '/' ('/' :: inside)
  | sign {c more} (listed : c :: more ∈ signs) : Shape c more

theorem exists_shape_comparison (op : Comparison) :
    ∃ c more, op.spelling.toList = c :: more ∧ Shape c more := by
  cases op with
  | eq => exact ⟨'=', ['='], rfl, .sign (by decide)⟩
  | ne => exact ⟨'!', ['='], rfl, .sign (by decide)⟩
  | ge => exact ⟨'>', ['='], rfl, .sign (by decide)⟩
  | le => exact ⟨'<', ['='], rfl, .sign (by decide)⟩
  | gt => exact ⟨'>', [], rfl, .sign (by decide)⟩
  | lt => exact ⟨'<', [], rfl, .sign (by decide)⟩

/-- A match has the shape that its first character allows. -/
theorem TokenKind.Matches.exists_shape {kind : TokenKind} {text : List Char}
    (matched : kind.Matches text) : ∃ c more, text = c :: more ∧ Shape c more := by
  cases kind with
  | keyword word =>
      obtain ⟨c, more, spelling, start, all, -⟩ := word.exists_spelling
      exact ⟨c, more, Eq.trans matched spelling, .word start all⟩
  | comparison op =>
      obtain ⟨c, more, spelling, shape⟩ := exists_shape_comparison op
      exact ⟨c, more, Eq.trans matched spelling, shape⟩
  | equals => exact ⟨'=', [], matched, .sign (by decide)⟩
  | plus => exact ⟨'+', [], matched, .sign (by decide)⟩
  | semicolon => exact ⟨';', [], matched, .sign (by decide)⟩
  | openBrace => exact ⟨'\x7b', [], matched, .sign (by decide)⟩
  | closeBrace => exact ⟨'\x7d', [], matched, .sign (by decide)⟩
  | openParen => exact ⟨'(', [], matched, .sign (by decide)⟩
  | closeParen => exact ⟨')', [], matched, .sign (by decide)⟩
  | integer =>
      obtain ⟨nonempty, all⟩ := matched
      obtain ⟨c, more, rfl⟩ := List.exists_cons_of_ne_nil nonempty
      exact ⟨c, more, rfl, .number (all c List.mem_cons_self)
        fun d mem => all d (List.mem_cons_of_mem c mem)⟩
  | quoted =>
      obtain ⟨inside, text, plain⟩ := matched
      exact ⟨'"', inside ++ ['"'], text, .quote plain⟩
  | name =>
      obtain ⟨c, more, text, start, all⟩ := matched
      exact ⟨c, more, text, .word start all⟩
  | comment =>
      obtain ⟨inside, text, plain⟩ := matched
      exact ⟨'/', '/' :: inside, text, .comment plain⟩
  | stray => exact False.elim matched

/-- A bound for the shapes is a bound for the matches. -/
theorem length_le_of_shapes {c : Char} {rest : List Char} {bound : Nat}
    (shapes : ∀ more, Shape c more → more <+: rest → more.length ≤ bound) (kind : TokenKind)
    (text : List Char) (matched : kind.Matches text) (starts : text <+: c :: rest) :
    text.length ≤ bound + 1 := by
  obtain ⟨d, more, rfl, shape⟩ := matched.exists_shape
  obtain ⟨rfl, behind⟩ := List.cons_prefix_cons.mp starts
  exact Nat.succ_le_succ (shapes more shape behind)

theorem unmatched_of_shapes {c : Char} {rest : List Char}
    (shapes : ∀ more, Shape c more → ¬ more <+: rest) (kind : TokenKind) (text : List Char)
    (matched : kind.Matches text) : ¬ text <+: c :: rest := by
  intro starts
  obtain ⟨d, more, rfl, shape⟩ := matched.exists_shape
  obtain ⟨rfl, behind⟩ := List.cons_prefix_cons.mp starts
  exact shapes more shape behind

/-! ## Shapes by their first character -/

theorem signs_apart : ∀ text ∈ signs, isNameStart (text.headD ' ') = false ∧
    (text.headD ' ').isDigit = false ∧ text.headD ' ' ≠ '"' ∧ text.headD ' ' ≠ '/' := by
  decide

theorem isDigit_of_isNameStart {c : Char} (start : isNameStart c = true) : c.isDigit = false := by
  cases digit : c.isDigit with
  | false => rfl
  | true =>
      rw [isNameStart_of_isDigit digit] at start
      cases start

namespace Shape

variable {c : Char} {more : List Char}

/-- What begins no word, no number, no quotation and no comment is a sign. -/
theorem mem_signs (shape : Shape c more) (name : isNameStart c = false)
    (digit : c.isDigit = false) (quote : c ≠ '"') (slash : c ≠ '/') : c :: more ∈ signs := by
  cases shape with
  | word start _ => exact absurd (name.symm.trans start) Bool.noConfusion
  | number digit' _ => exact absurd (digit.symm.trans digit') Bool.noConfusion
  | quote _ => exact absurd rfl quote
  | comment _ => exact absurd rfl slash
  | sign listed => exact listed

theorem of_isNameStart (shape : Shape c more) (start : isNameStart c = true) :
    ∀ d ∈ more, isNameChar d = true := by
  cases shape with
  | word _ all => exact all
  | number digit _ =>
      exact absurd (start.symm.trans (isNameStart_of_isDigit digit)) Bool.noConfusion
  | quote _ => exact absurd start (by decide)
  | comment _ => exact absurd start (by decide)
  | sign listed => exact absurd ((signs_apart _ listed).1.symm.trans start) Bool.noConfusion

theorem of_isDigit (shape : Shape c more) (digit : c.isDigit = true) :
    ∀ d ∈ more, d.isDigit = true := by
  cases shape with
  | word start _ => exact absurd (digit.symm.trans (isDigit_of_isNameStart start)) Bool.noConfusion
  | number _ all => exact all
  | quote _ => exact absurd digit (by decide)
  | comment _ => exact absurd digit (by decide)
  | sign listed => exact absurd ((signs_apart _ listed).2.1.symm.trans digit) Bool.noConfusion

theorem of_quote (shape : Shape c more) (quote : c = '"') :
    ∃ inside, more = inside ++ ['"'] ∧ ∀ d ∈ inside, d ≠ '"' ∧ d ≠ '\n' := by
  cases shape with
  | word start _ => exact absurd (quote ▸ start) (by decide)
  | number digit _ => exact absurd (quote ▸ digit) (by decide)
  | quote plain => exact ⟨_, rfl, plain⟩
  | comment _ => exact absurd quote (by decide)
  | sign listed => exact absurd quote (signs_apart _ listed).2.2.1

theorem of_slash (shape : Shape c more) (slash : c = '/') :
    ∃ inside, more = '/' :: inside ∧ ∀ d ∈ inside, d ≠ '\n' := by
  cases shape with
  | word start _ => exact absurd (slash ▸ start) (by decide)
  | number digit _ => exact absurd (slash ▸ digit) (by decide)
  | quote _ => exact absurd slash (by decide)
  | comment plain => exact ⟨_, rfl, plain⟩
  | sign listed => exact absurd slash (signs_apart _ listed).2.2.2

end Shape

/-! ## The token at a place -/

/-- No longer text of one class of characters begins here. -/
theorem length_le_runLength {p : Char → Bool} {run rest : List Char} (starts : run <+: rest)
    (all : ∀ c ∈ run, p c = true) : run.length ≤ runLength p rest := by
  obtain ⟨behind, rfl⟩ := starts
  rw [runLength, List.takeWhile_append_of_pos all, List.length_append]
  exact Nat.le_add_right _ _

/-- A token as it is taken at the start of a text. -/
structure Token.Taken (token : Token) (input : List Char) : Prop where
  longest : token.kind ≠ .stray → token.IsLongest input
  stray : token.kind = .stray → token.IsStray input

theorem Token.IsLongest.taken {token : Token} {input : List Char}
    (longest : token.IsLongest input) : token.Taken input where
  longest _ := longest
  stray kind := by
    have matched := longest.matched
    rw [kind] at matched
    exact matched.elim

theorem Token.IsStray.taken {token : Token} {input : List Char} (kind : token.kind = .stray)
    (stray : token.IsStray input) : token.Taken input where
  longest other := absurd kind other
  stray _ := stray

section

variable {c : Char} {more rest : List Char} {kind : TokenKind} (col : Nat)

/-- A match that is no word is the longest one if no other shape is longer. -/
theorem isLongest_of_shapes (name : isNameStart c = false) (starts : more <+: rest)
    (matched : kind.Matches (c :: more))
    (shapes : ∀ other, Shape c other → other <+: rest → other.length ≤ more.length) :
    Token.IsLongest ⟨kind, c :: more, col⟩ (c :: rest) where
  starts := (List.prefix_cons_inj c).mpr starts
  matched := matched
  longest := length_le_of_shapes shapes
  reserved word text := by
    obtain ⟨d, other, spelling, start, -⟩ := word.exists_spelling
    obtain ⟨rfl, -⟩ := List.cons.inj (Eq.trans text spelling)
    exact absurd (name.symm.trans start) Bool.noConfusion
  named := by
    rintro ⟨d, other, text, start, -⟩
    obtain ⟨rfl, -⟩ := List.cons.inj text
    exact absurd (name.symm.trans start) Bool.noConfusion

theorem taken_word (start : isNameStart c = true) :
    Token.Taken ⟨wordKind (c :: rest.takeWhile isNameChar), c :: rest.takeWhile isNameChar, col⟩
      (c :: rest) := by
  have all : ∀ d ∈ rest.takeWhile isNameChar, isNameChar d = true :=
    fun d mem => List.all_eq_true.mp List.all_takeWhile d mem
  apply Token.IsLongest.taken
  refine ⟨(List.prefix_cons_inj c).mpr (List.takeWhile_prefix _), ?_, ?_, ?_, ?_⟩
  · unfold wordKind
    split
    · next word found => exact Keyword.eq_spelling found
    · exact ⟨c, _, rfl, start, all⟩
  · exact length_le_of_shapes fun other shape starts =>
      length_le_runLength starts (shape.of_isNameStart start)
  · rintro word text
    obtain ⟨d, other, spelling, -, -, kind⟩ := word.exists_spelling
    change wordKind (c :: rest.takeWhile isNameChar) = _
    rw [show c :: rest.takeWhile isNameChar = d :: other from Eq.trans text spelling, kind]
  · intro _ free
    change wordKind (c :: rest.takeWhile isNameChar) = _
    unfold wordKind
    split
    · next word found => exact absurd (Keyword.eq_spelling found) (free word)
    · rfl

theorem taken_number (digit : c.isDigit = true) :
    Token.Taken ⟨.integer, c :: rest.takeWhile Char.isDigit, col⟩ (c :: rest) := by
  apply Token.IsLongest.taken
  apply isLongest_of_shapes col (isNameStart_of_isDigit digit) (List.takeWhile_prefix _)
  · refine ⟨List.cons_ne_nil _ _, fun d mem => ?_⟩
    rcases List.mem_cons.mp mem with rfl | inRun
    · exact digit
    · exact List.all_eq_true.mp List.all_takeWhile d inRun
  · intro other shape starts
    exact length_le_runLength starts (shape.of_isDigit digit)

theorem taken_comment (second : rest.head? = some '/') :
    Token.Taken ⟨.comment, '/' :: rest.takeWhile (fun d => d ≠ '\n'), col⟩ ('/' :: rest) := by
  obtain ⟨behind, rfl⟩ := List.head?_eq_some_iff.mp second
  have run : ('/' :: behind).takeWhile (fun d => d ≠ '\n') =
      '/' :: behind.takeWhile fun d => d ≠ '\n' := rfl
  apply Token.IsLongest.taken
  apply isLongest_of_shapes col rfl (List.takeWhile_prefix _)
  · refine ⟨behind.takeWhile fun d => d ≠ '\n', by rw [run], fun d mem => ?_⟩
    exact of_decide_eq_true (List.all_eq_true.mp List.all_takeWhile d mem)
  · intro other shape starts
    obtain ⟨inside, rfl, plain⟩ := shape.of_slash rfl
    apply length_le_runLength starts
    intro d mem
    rcases List.mem_cons.mp mem with rfl | inside
    · rfl
    · exact decide_eq_true (plain d inside)

/-- A single slash begins nothing. -/
theorem taken_slash (second : rest.head? ≠ some '/') :
    Token.Taken ⟨.stray, ['/'], col⟩ ('/' :: rest) := by
  refine Token.IsStray.taken rfl ⟨unmatched_of_shapes ?_, .inr ⟨'/', rest, rfl, rfl⟩⟩
  intro other shape starts
  obtain ⟨inside, rfl, -⟩ := shape.of_slash rfl
  obtain ⟨behind, rfl⟩ := starts
  exact second rfl

/-- A sign is taken if no longer sign begins here. -/
theorem taken_sign (listed : c :: more ∈ signs) (matched : kind.Matches (c :: more))
    (starts : more <+: rest)
    (only : ∀ other, c :: other ∈ signs → other <+: rest → other.length ≤ more.length) :
    Token.Taken ⟨kind, c :: more, col⟩ (c :: rest) := by
  obtain ⟨name, digit, quote, slash⟩ := signs_apart _ listed
  apply Token.IsLongest.taken
  apply isLongest_of_shapes col name starts matched
  exact fun other shape => only other (shape.mem_signs name digit quote slash)

/-- A character is stray if it begins no sign here, nor anything else. -/
theorem taken_stray (name : isNameStart c = false) (digit : c.isDigit = false) (quote : c ≠ '"')
    (slash : c ≠ '/') (none : ∀ other, c :: other ∈ signs → ¬ other <+: rest) :
    Token.Taken ⟨.stray, [c], col⟩ (c :: rest) := by
  refine Token.IsStray.taken rfl ⟨unmatched_of_shapes ?_, .inr ⟨c, rest, rfl, rfl⟩⟩
  exact fun other shape => none other (shape.mem_signs name digit quote slash)

/-- A sign that begins a comparison, or is stray if it is not one by itself. -/
theorem taken_orComparison {op : Comparison} (pair : [c, '='] ∈ signs)
    (spelling : [c, '='] = op.spelling.toList)
    (only : ∀ other, c :: other ∈ signs → other = [] ∨ other = ['='])
    (single : [c] ∈ signs ∧ kind.Matches [c] ∨ [c] ∉ signs ∧ kind = .stray) :
    Token.Taken
      ⟨(orComparison kind op rest).1, c :: rest.take (orComparison kind op rest).2, col⟩
      (c :: rest) := by
  unfold orComparison
  split
  · next equals =>
    obtain ⟨behind, rfl⟩ := List.head?_eq_some_iff.mp equals
    refine taken_sign col pair spelling ⟨behind, rfl⟩ fun other listed _ => ?_
    rcases only other listed with rfl | rfl
    · exact Nat.zero_le 1
    · exact Nat.le_refl 1
  · next equals =>
    have longer : ¬ ['='] <+: rest := by
      rintro ⟨behind, rfl⟩
      exact equals rfl
    rcases single with ⟨listed, matched⟩ | ⟨unlisted, rfl⟩
    · refine taken_sign col listed matched List.nil_prefix fun other listed starts => ?_
      rcases only other listed with rfl | rfl
      · exact Nat.le_refl 0
      · exact absurd starts longer
    · obtain ⟨name, digit, quote, slash⟩ := signs_apart _ pair
      refine taken_stray col name digit quote slash fun other listed starts => ?_
      rcases only other listed with rfl | rfl
      · exact unlisted listed
      · exact longer starts

theorem taken_single (listed : [c] ∈ signs) (matched : kind.Matches [c])
    (only : ∀ other, c :: other ∈ signs → other = []) :
    Token.Taken ⟨kind, [c], col⟩ (c :: rest) := by
  refine taken_sign col listed matched List.nil_prefix fun other longer _ => ?_
  exact Nat.le_of_eq (congrArg List.length (only other longer))

/-- A quotation that is closed on its line. -/
theorem taken_quoted {inside : List Char} (plain : ∀ d ∈ inside, d ≠ '"' ∧ d ≠ '\n') :
    Token.Taken ⟨.quoted, '"' :: (inside ++ ['"']), col⟩ ('"' :: (inside ++ '"' :: rest)) := by
  apply Token.IsLongest.taken
  refine isLongest_of_shapes col rfl ⟨rest, by simp⟩ ⟨inside, rfl, plain⟩ ?_
  intro other shape starts
  obtain ⟨inside', rfl, plain'⟩ := shape.of_quote rfl
  obtain ⟨rest', whole⟩ := starts
  -- Both end at the first quote, where the scanner ends the quotation.
  have first := quotation_closed plain rest
  have second := quotation_closed plain' rest'
  rw [← whole, List.append_assoc, List.singleton_append, second] at first
  have lengths := congrArg Prod.snd first
  simp only [List.length_append, List.length_singleton]
  exact Nat.le_of_eq lengths

/-- A quotation that is not closed on its line. -/
theorem taken_unclosed {inside : List Char} (plain : ∀ d ∈ inside, d ≠ '"' ∧ d ≠ '\n')
    (ends : Stops (fun d => d ≠ '\n') rest) :
    Token.Taken ⟨.stray, '"' :: inside, col⟩ ('"' :: (inside ++ rest)) := by
  have line : ((inside ++ rest).takeWhile fun d => d ≠ '\n') = inside :=
    takeWhile_of_stops (fun d mem => decide_eq_true (plain d mem).2) ends
  refine Token.IsStray.taken rfl ⟨unmatched_of_shapes ?_, .inl ⟨_, rfl, by rw [line]⟩⟩
  intro other shape starts
  obtain ⟨inside', rfl, plain'⟩ := shape.of_quote rfl
  obtain ⟨rest', whole⟩ := starts
  have closed := quotation_closed plain' rest'
  rw [← List.singleton_append, ← List.append_assoc, whole, quotation_unclosed plain ends] at closed
  cases closed

theorem taken_quotation :
    Token.Taken ⟨(quotation rest).1, '"' :: rest.take (quotation rest).2, col⟩ ('"' :: rest) := by
  obtain ⟨inside, behind, rfl, plain, ⟨rest', rfl⟩ | ends⟩ := exists_inside rest
  · have text : (inside ++ '"' :: rest').take (inside.length + 1) = inside ++ ['"'] := by
      rw [← List.singleton_append, ← List.append_assoc]
      exact List.take_left' (by simp)
    rw [quotation_closed plain, text]
    exact taken_quoted col plain
  · rw [quotation_unclosed plain ends, List.take_left]
    exact taken_unclosed col plain ends

end

/-- The scanner takes the longest match at each place. -/
theorem taken_tokenAt (c : Char) (rest : List Char) (col : Nat) :
    Token.Taken ⟨(tokenAt c rest).1, c :: rest.take (tokenAt c rest).2, col⟩ (c :: rest) := by
  unfold tokenAt
  split
  · next start =>
    dsimp only
    rw [take_runLength]
    exact taken_word col start
  · next name =>
    split
    · next digit =>
      dsimp only
      rw [take_runLength]
      exact taken_number col digit
    · next digit =>
      split
      case h_1 =>
        split
        · next second =>
          dsimp only
          rw [take_runLength]
          exact taken_comment col second
        · next second => exact taken_slash col second
      case h_2 => exact taken_quotation col
      case h_3 =>
        exact taken_orComparison col (by decide) rfl (by simp [signs]) (.inl ⟨by decide, rfl⟩)
      case h_4 =>
        exact taken_orComparison col (by decide) rfl (by simp [signs]) (.inr ⟨by decide, rfl⟩)
      case h_5 =>
        exact taken_orComparison col (by decide) rfl (by simp [signs]) (.inl ⟨by decide, rfl⟩)
      case h_6 =>
        exact taken_orComparison col (by decide) rfl (by simp [signs]) (.inl ⟨by decide, rfl⟩)
      case h_7 => exact taken_single col (by decide) rfl (by simp [signs])
      case h_8 => exact taken_single col (by decide) rfl (by simp [signs])
      case h_9 => exact taken_single col (by decide) rfl (by simp [signs])
      case h_10 => exact taken_single col (by decide) rfl (by simp [signs])
      case h_11 => exact taken_single col (by decide) rfl (by simp [signs])
      case h_12 => exact taken_single col (by decide) rfl (by simp [signs])
      case h_13 slash quote _ _ _ _ _ _ _ _ _ _ =>
        have none : ∀ other, c :: other ∈ signs → ¬ other <+: rest := by
          intro other listed
          simp only [signs, List.mem_cons, List.cons.injEq, List.not_mem_nil, or_false] at listed
          grind
        exact taken_stray col (by simpa using name) (by simpa using digit) quote slash none

/-! ## Matches that nothing lengthens -/

/-- The characters that would lengthen a token of a kind. -/
def TokenKind.grows : TokenKind → Char → Bool
  | .keyword _ | .name => isNameChar
  | .integer => Char.isDigit
  | .equals | .comparison _ => fun c => c = '='
  | .comment => fun c => c ≠ '\n'
  | _ => fun _ => false

/-- A match is read as a token, if what follows does not lengthen it and it is no reserved word in
the place of a name. -/
theorem TokenKind.Matches.ends {kind : TokenKind} {gap text rest : List Char}
    (matched : kind.Matches text) (blank : ∀ c ∈ gap, isGap c = true)
    (free : kind = .name → Keyword.ofChars? text = none) (stops : Stops kind.grows rest) :
    Lexeme.Ends ⟨gap, kind, text⟩ rest := by
  cases kind with
  | keyword word =>
      obtain ⟨c, more, spelling, start, all, kind⟩ := word.exists_spelling
      obtain rfl : text = c :: more := Eq.trans matched spelling
      rw [← kind]
      exact Lexeme.ends_word blank start all stops
  | comparison op =>
      obtain rfl : text = op.spelling.toList := matched
      exact Lexeme.ends_comparison blank op stops
  | equals =>
      obtain rfl : text = ['='] := matched
      exact Lexeme.ends_equals blank stops
  | plus =>
      obtain rfl : text = ['+'] := matched
      exact ⟨blank, '+', [], rfl, rfl, rfl⟩
  | semicolon =>
      obtain rfl : text = [';'] := matched
      exact ⟨blank, ';', [], rfl, rfl, rfl⟩
  | openBrace =>
      obtain rfl : text = ['\x7b'] := matched
      exact ⟨blank, '\x7b', [], rfl, rfl, rfl⟩
  | closeBrace =>
      obtain rfl : text = ['\x7d'] := matched
      exact ⟨blank, '\x7d', [], rfl, rfl, rfl⟩
  | openParen =>
      obtain rfl : text = ['('] := matched
      exact ⟨blank, '(', [], rfl, rfl, rfl⟩
  | closeParen =>
      obtain rfl : text = [')'] := matched
      exact ⟨blank, ')', [], rfl, rfl, rfl⟩
  | integer => exact Lexeme.ends_integer blank matched.1 matched.2 stops
  | quoted =>
      obtain ⟨inside, rfl, plain⟩ := matched
      exact Lexeme.ends_quoted blank plain rest
  | name =>
      obtain ⟨c, more, rfl, start, all⟩ := matched
      have kind : wordKind (c :: more) = .name := by
        rw [wordKind, free rfl]
      rw [← kind]
      exact Lexeme.ends_word blank start all stops
  | comment =>
      obtain ⟨inside, rfl, plain⟩ := matched
      exact Lexeme.ends_comment blank plain stops
  | stray => exact False.elim matched

/-! ## The tokens of a line -/

/-- Each token of a text is taken where it stands. -/
theorem Cut.taken {col : Nat} {chars : List Char} {tokens : List Token}
    (cut : Cut col chars tokens) :
    ∀ token ∈ tokens, col ≤ token.col ∧ token.Taken (chars.drop (token.col - col)) := by
  induction cut with
  | done col =>
      intro token mem
      cases mem
  | @gap col c rest tokens blank _ ih =>
      intro token mem
      obtain ⟨after, taken⟩ := ih token mem
      refine ⟨by omega, ?_⟩
      rw [show token.col - col = token.col - (col + 1) + 1 by omega, List.drop_succ_cons]
      exact taken
  | @token col c rest kind more tokens visible longest _ ih =>
      intro token mem
      rcases List.mem_cons.mp mem with rfl | mem
      · have taken := taken_tokenAt c rest col
        rw [longest] at taken
        refine ⟨Nat.le_refl col, ?_⟩
        rw [Nat.sub_self, List.drop_zero]
        exact taken
      · obtain ⟨after, taken⟩ := ih token mem
        refine ⟨by omega, ?_⟩
        rw [List.drop_drop] at taken
        rw [show token.col - col = more + (token.col - (col + (more + 1))) + 1 by omega,
          List.drop_succ_cons]
        exact taken

/-- The tokens of a line are longest matches, and stray only where nothing matches. -/
structure ScansLongest (text : Line) : Prop where
  longest : ∀ token ∈ scan text, token.kind ≠ .stray → token.IsLongest (text.drop token.col)
  stray : ∀ token ∈ scan text, token.kind = .stray → token.IsStray (text.drop token.col)
  /-- No character is passed over but the gaps. -/
  covered : ∀ col c, text[col]? = some c → isGap c = false →
    ∃ token ∈ scan text, token.col ≤ col ∧ col < token.stop

/-- Every line is cut into longest matches. -/
theorem scan_longest (line : Line) : ScansLongest line where
  longest token mem := ((cut_scan line).taken token mem).2.longest
  stray token mem := ((cut_scan line).taken token mem).2.stray
  covered col c here visible := by
    refine Classical.byContradiction fun uncovered => ?_
    have blank := (cut_scan line).gap_of_uncovered here fun token mem inside =>
      uncovered ⟨token, mem, by rwa [Nat.zero_add] at inside⟩
    exact absurd (blank.symm.trans visible) Bool.noConfusion

end LineScript
