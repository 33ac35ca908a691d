import LineScript.Token.Scan

/-!
# Cutting written lexemes

A line is written as a list of lexemes with gaps between them. The scanner finds each of them
again if what follows does not lengthen it: a letter would lengthen a word, a digit a number, an
equals sign a comparison. `Lexeme.Ends` is this condition on a lexeme and the characters behind
it, and `Laid` puts the lexemes of a line together, with a last gap behind them: their tokens are
read back with the columns in which they were written.
-/

namespace LineScript

/-- A lexeme of a line, with the characters that separate it from the one before. -/
structure Lexeme where
  gap : List Char
  kind : TokenKind
  text : List Char

namespace Lexeme

/-- The characters of consecutive lexemes. -/
def write : List Lexeme → Line
  | [] => []
  | lexeme :: rest => lexeme.gap ++ lexeme.text ++ write rest

/-- The tokens of consecutive lexemes that are written from column `col` on. -/
def tokens (col : Nat) : List Lexeme → List Token
  | [] => []
  | lexeme :: rest =>
    ⟨lexeme.kind, lexeme.text, col + lexeme.gap.length⟩ ::
      tokens (col + (lexeme.gap.length + lexeme.text.length)) rest

/-- The lexeme with a space before it. -/
def spaced (lexeme : Lexeme) : Lexeme :=
  { lexeme with gap := [' '] }

theorem write_append (left right : List Lexeme) :
    write (left ++ right) = write left ++ write right := by
  induction left with
  | nil => rfl
  | cons lexeme rest ih => simp [write, ih]

/-- A lexeme ends where it was written to end, if `rest` follows it. -/
structure Ends (lexeme : Lexeme) (rest : List Char) : Prop where
  gap : ∀ c ∈ lexeme.gap, isGap c = true
  token : ∃ c more, lexeme.text = c :: more ∧ isGap c = false ∧
    tokenAt c (more ++ rest) = (lexeme.kind, more.length)

/-- Every lexeme ends where it was written to end, followed by those behind it. -/
def Apart : List Lexeme → Prop
  | [] => True
  | lexeme :: rest => lexeme.Ends (write rest) ∧ Apart rest

theorem Ends.spaced {lexeme : Lexeme} {rest : List Char} (ends : lexeme.Ends rest) :
    lexeme.spaced.Ends rest := by
  refine ⟨?_, ends.token⟩
  intro c mem
  cases List.mem_singleton.mp mem
  rfl

end Lexeme

/-- A gap is skipped. -/
theorem scanOnto_gap {gap : List Char} (blank : ∀ c ∈ gap, isGap c = true) (done : List Token)
    (col : Nat) (rest : List Char) :
    scanOnto done col (gap ++ rest) = scanOnto done (col + gap.length) rest := by
  induction gap generalizing col with
  | nil => rfl
  | cons c gap ih =>
      rw [List.cons_append, scanOnto, if_pos (blank c List.mem_cons_self),
        ih (fun d mem => blank d (List.mem_cons_of_mem c mem)), List.length_cons]
      congr 1
      omega

/-- A lexeme that ends where it should is read as one token. -/
theorem scanOnto_lexeme {lexeme : Lexeme} {rest : List Char} (ends : lexeme.Ends rest)
    (done : List Token) (col : Nat) :
    scanOnto done col (lexeme.gap ++ lexeme.text ++ rest) =
      scanOnto (⟨lexeme.kind, lexeme.text, col + lexeme.gap.length⟩ :: done)
        (col + (lexeme.gap.length + lexeme.text.length)) rest := by
  obtain ⟨c, more, text, visible, token⟩ := ends.token
  rw [List.append_assoc, scanOnto_gap ends.gap, text, List.cons_append, scanOnto,
    if_neg (by simp [visible]), token]
  simp only [List.take_left, List.drop_left, List.length_cons]
  congr 1
  omega

/-- Consecutive lexemes and a last gap. Each lexeme ends where it was written to end, followed by
those behind it and the gap. -/
def Laid (last : List Char) : List Lexeme → Prop
  | [] => ∀ c ∈ last, isGap c = true
  | lexeme :: rest => lexeme.Ends (Lexeme.write rest ++ last) ∧ Laid last rest

theorem Lexeme.Apart.laid {lexemes : List Lexeme} (apart : Apart lexemes) : Laid [] lexemes := by
  induction lexemes with
  | nil =>
      intro c mem
      cases mem
  | cons lexeme rest ih =>
      refine ⟨?_, ih apart.2⟩
      rw [List.append_nil]
      exact apart.1

/-- Lexemes that are laid out are read one by one. -/
theorem Laid.scanOnto {lexemes : List Lexeme} {last : List Char} (laid : Laid last lexemes)
    (done : List Token) (col : Nat) :
    scanOnto done col (Lexeme.write lexemes ++ last) =
      done.reverse ++ Lexeme.tokens col lexemes := by
  induction lexemes generalizing done col with
  | nil =>
      have skipped := scanOnto_gap laid done col []
      rw [List.append_nil, LineScript.scanOnto] at skipped
      rw [Lexeme.write, List.nil_append, skipped, Lexeme.tokens, List.append_nil]
  | cons lexeme rest ih =>
      rw [Lexeme.write, List.append_assoc, scanOnto_lexeme laid.1, ih laid.2]
      simp [Lexeme.tokens]

/-- The tokens of a text that is laid out are its lexemes. -/
theorem scan_laid {lexemes : List Lexeme} {last : List Char} (laid : Laid last lexemes) :
    scan (Lexeme.write lexemes ++ last) = Lexeme.tokens 0 lexemes := by
  rw [scan, laid.scanOnto, List.reverse_nil, List.nil_append]

/-- The lexemes of a line are its tokens, in the columns in which they are written. -/
theorem scan_write {indent : List Char} {lexemes : List Lexeme}
    (blank : ∀ c ∈ indent, isGap c = true) (apart : Lexeme.Apart lexemes) :
    scan (indent ++ Lexeme.write lexemes) = Lexeme.tokens indent.length lexemes := by
  have scanned := apart.laid.scanOnto [] indent.length
  rw [List.append_nil, List.reverse_nil, List.nil_append] at scanned
  rw [scan, scanOnto_gap blank, Nat.zero_add, scanned]

/-- The code of a line is that of its lexemes. -/
theorem Lexeme.codeTokens_tokens (col : Nat) (lexemes : List Lexeme) :
    codeTokens (tokens col lexemes) =
      tokens col (lexemes.takeWhile fun lexeme => lexeme.kind ≠ .comment) := by
  induction lexemes generalizing col with
  | nil => rfl
  | cons lexeme rest ih =>
      unfold codeTokens at ih ⊢
      by_cases comment : lexeme.kind = .comment
      · simp [tokens, comment]
      · rw [tokens, List.takeWhile_cons_of_pos (by simpa using comment), ih,
          List.takeWhile_cons_of_pos (by simpa using comment), tokens]

/-- No character that `p` accepts comes next. -/
def Stops (p : Char → Bool) (rest : List Char) : Prop :=
  ∀ c ∈ rest.head?, p c = false

theorem stops_nil (p : Char → Bool) : Stops p [] := by
  intro c first
  cases first

theorem stops_cons {p : Char → Bool} {c : Char} (stop : p c = false) (rest : List Char) :
    Stops p (c :: rest) := by
  intro d first
  cases first
  exact stop

theorem takeWhile_of_stops {p : Char → Bool} {run rest : List Char} (all : ∀ c ∈ run, p c = true)
    (stops : Stops p rest) : (run ++ rest).takeWhile p = run := by
  rw [List.takeWhile_append_of_pos all]
  cases rest with
  | nil => simp
  | cons c rest => simp [stops c (by simp)]

theorem runLength_of_stops {p : Char → Bool} {run rest : List Char}
    (all : ∀ c ∈ run, p c = true) (stops : Stops p rest) :
    runLength p (run ++ rest) = run.length := by
  rw [runLength, takeWhile_of_stops all stops]

/-- A run that ends where it does is of one class, and what follows does not lengthen it. -/
theorem stops_of_runLength {p : Char → Bool} {run rest : List Char}
    (length : runLength p (run ++ rest) = run.length) :
    (∀ c ∈ run, p c = true) ∧ Stops p rest := by
  have same : (run ++ rest).takeWhile p = run := by
    have starts := List.takeWhile_prefix p (l := run ++ rest)
    rw [List.prefix_iff_eq_take, ← runLength, length, List.take_left] at starts
    exact starts
  refine ⟨?_, ?_⟩
  · rw [← same]
    exact fun c mem => List.all_eq_true.mp List.all_takeWhile c mem
  · have behind := List.takeWhile_append_dropWhile (p := p) (l := run ++ rest)
    rw [same, List.append_cancel_left_eq] at behind
    intro c mem
    have first := List.head?_dropWhile_not p (run ++ rest)
    rw [behind, mem] at first
    simpa using first

theorem gap_cases {c : Char} (blank : isGap c = true) : c = ' ' ∨ c = '\t' ∨ c = '\r' := by
  simpa [isGap, or_assoc] using blank

theorem isNameChar_of_isGap {c : Char} (blank : isGap c = true) : isNameChar c = false := by
  rcases gap_cases blank with rfl | rfl | rfl <;> decide

theorem isDigit_of_isGap {c : Char} (blank : isGap c = true) : c.isDigit = false := by
  rcases gap_cases blank with rfl | rfl | rfl <;> decide

theorem isGap_of_isNameStart {c : Char} (start : isNameStart c = true) : isGap c = false := by
  cases gap : isGap c with
  | false => rfl
  | true => rcases gap_cases gap with rfl | rfl | rfl <;> cases start

theorem isGap_of_isDigit {c : Char} (digit : c.isDigit = true) : isGap c = false := by
  cases gap : isGap c with
  | false => rfl
  | true => rcases gap_cases gap with rfl | rfl | rfl <;> cases digit

theorem isNameStart_of_isDigit {c : Char} (digit : c.isDigit = true) :
    isNameStart c = false := by
  cases start : isNameStart c with
  | false => rfl
  | true =>
      have small := (Char.isDigit_iff_toNat.mp digit).2
      change (decide ('A'.val ≤ c.val ∧ c.val ≤ 'Z'.val) ||
        (decide ('a'.val ≤ c.val) && decide (c.val ≤ 'z'.val)) || decide (c = '_')) = true at start
      simp only [Bool.or_eq_true, Bool.and_eq_true, decide_eq_true_eq,
        UInt32.le_iff_toNat_le] at start
      rcases start with (upper | lower) | rfl
      · have past : '9'.toNat < 'A'.val.toNat := by decide
        exact absurd (Nat.le_trans upper.1 small) (Nat.not_le.mpr past)
      · have past : '9'.toNat < 'a'.val.toNat := by decide
        exact absurd (Nat.le_trans lower.1 small) (Nat.not_le.mpr past)
      · exact absurd digit (by decide)

theorem nameChar_of_isDigit {c : Char} (digit : c.isDigit = true) : isNameChar c = true := by
  simp [isNameChar, Char.isAlphanum, digit]

/-- What ends a word ends a number. -/
theorem stops_digits {rest : List Char} (stops : Stops isNameChar rest) :
    Stops Char.isDigit rest := by
  intro c next
  cases digit : c.isDigit with
  | false => rfl
  | true =>
      have := stops c next
      rw [nameChar_of_isDigit digit] at this
      cases this

/-- How a reserved word is spelled. -/
theorem Keyword.exists_spelling (word : Keyword) :
    ∃ c more, word.spelling.toList = c :: more ∧ isNameStart c = true ∧
      (∀ d ∈ more, isNameChar d = true) ∧ wordKind (c :: more) = .keyword word := by
  cases word with
  | print => exact ⟨'p', "rint".toList, rfl, rfl, List.all_eq_true.mp rfl, rfl⟩
  | declare => exact ⟨'v', "ar".toList, rfl, rfl, List.all_eq_true.mp rfl, rfl⟩
  | loop => exact ⟨'w', "hile".toList, rfl, rfl, List.all_eq_true.mp rfl, rfl⟩
  | branch => exact ⟨'i', "f".toList, rfl, rfl, List.all_eq_true.mp rfl, rfl⟩
  | otherwise => exact ⟨'e', "lse".toList, rfl, rfl, List.all_eq_true.mp rfl, rfl⟩
  | function => exact ⟨'f', "unc".toList, rfl, rfl, List.all_eq_true.mp rfl, rfl⟩

/-- A quotation that the next quote closes. -/
theorem quotation_closed {inside : List Char} (plain : ∀ c ∈ inside, c ≠ '"' ∧ c ≠ '\n')
    (rest : List Char) : quotation (inside ++ '"' :: rest) = (.quoted, inside.length + 1) := by
  have run : runLength (fun c => c ≠ '"' && c ≠ '\n') (inside ++ '"' :: rest) =
      inside.length := by
    refine runLength_of_stops ?_ ?_
    · intro c mem
      simp [plain c mem]
    · intro c mem
      cases mem
      rfl
  rw [quotation, run, List.drop_left]
  simp

/-- A quotation that its line does not close. -/
theorem quotation_unclosed {inside rest : List Char}
    (plain : ∀ c ∈ inside, c ≠ '"' ∧ c ≠ '\n') (ends : Stops (fun c => c ≠ '\n') rest) :
    quotation (inside ++ rest) = (.stray, inside.length) := by
  have newline : ∀ c ∈ rest.head?, c = '\n' := by
    intro c mem
    simpa using ends c mem
  have run : runLength (fun c => c ≠ '"' && c ≠ '\n') (inside ++ rest) = inside.length := by
    refine runLength_of_stops ?_ ?_
    · intro c mem
      simp [plain c mem]
    · intro c mem
      simp [newline c mem]
  rw [quotation, run, List.drop_left, if_neg]
  intro quote
  exact absurd (newline '"' quote) (by decide)

/-- What follows an opening quote runs to a closing quote or to the end of its line. -/
theorem exists_inside (rest : List Char) :
    ∃ inside behind, rest = inside ++ behind ∧ (∀ c ∈ inside, c ≠ '"' ∧ c ≠ '\n') ∧
      ((∃ after, behind = '"' :: after) ∨ Stops (fun c => c ≠ '\n') behind) := by
  refine ⟨_, _, (List.takeWhile_append_dropWhile (p := fun c => c ≠ '"' && c ≠ '\n')).symm,
    ?_, ?_⟩
  · intro c mem
    simpa using List.all_eq_true.mp List.all_takeWhile c mem
  · by_cases quote : (rest.dropWhile fun c => c ≠ '"' && c ≠ '\n').head? = some '"'
    · exact .inl (List.head?_eq_some_iff.mp quote)
    · refine .inr fun c first => ?_
      have stop := List.head?_dropWhile_not (fun c => c ≠ '"' && c ≠ '\n') rest
      rw [first] at stop
      have other : c ≠ '"' := fun same => quote (same ▸ first)
      simpa [other] using stop

namespace Lexeme

/-- A word, followed by no more of it. -/
theorem ends_word {gap : List Char} {c : Char} {more rest : List Char}
    (blank : ∀ c ∈ gap, isGap c = true) (start : isNameStart c = true)
    (all : ∀ d ∈ more, isNameChar d = true) (stops : Stops isNameChar rest) :
    Ends ⟨gap, wordKind (c :: more), c :: more⟩ rest := by
  refine ⟨blank, c, more, rfl, isGap_of_isNameStart start, ?_⟩
  unfold tokenAt
  rw [if_pos start, runLength_of_stops all stops]
  dsimp only
  rw [List.take_left]

/-- A number, followed by no more digits. -/
theorem ends_integer {gap digits rest : List Char} (blank : ∀ c ∈ gap, isGap c = true)
    (nonempty : digits ≠ []) (all : ∀ c ∈ digits, c.isDigit = true)
    (stops : Stops Char.isDigit rest) : Ends ⟨gap, .integer, digits⟩ rest := by
  cases digits with
  | nil => exact (nonempty rfl).elim
  | cons c more =>
      have digit : c.isDigit = true := all c List.mem_cons_self
      refine ⟨blank, c, more, rfl, isGap_of_isDigit digit, ?_⟩
      unfold tokenAt
      rw [if_neg (by simp [isNameStart_of_isDigit digit]), if_pos digit,
        runLength_of_stops (fun d mem => all d (List.mem_cons_of_mem c mem)) stops]

/-- A quotation ends at its second quote, whatever follows. -/
theorem ends_quoted {gap chars : List Char} (blank : ∀ c ∈ gap, isGap c = true)
    (plain : ∀ c ∈ chars, c ≠ '"' ∧ c ≠ '\n') (rest : List Char) :
    Ends ⟨gap, .quoted, '"' :: chars ++ ['"']⟩ rest := by
  refine ⟨blank, '"', chars ++ ['"'], rfl, rfl, ?_⟩
  change quotation (chars ++ ['"'] ++ rest) = _
  rw [List.append_assoc, List.singleton_append, quotation_closed plain]
  simp

/-- A comment runs to the end of the line. -/
theorem ends_comment {gap chars rest : List Char} (blank : ∀ c ∈ gap, isGap c = true)
    (plain : ∀ c ∈ chars, c ≠ '\n') (stops : Stops (fun c => c ≠ '\n') rest) :
    Ends ⟨gap, .comment, '/' :: '/' :: chars⟩ rest := by
  refine ⟨blank, '/', '/' :: chars, rfl, rfl, ?_⟩
  have inside : runLength (fun d => d ≠ '\n') ('/' :: chars ++ rest) = ('/' :: chars).length := by
    refine runLength_of_stops ?_ stops
    intro c mem
    rcases List.mem_cons.mp mem with rfl | mem
    · rfl
    · simp [plain c mem]
  change (if ('/' :: chars ++ rest).head? = some '/' then
    (TokenKind.comment, runLength (fun d => d ≠ '\n') ('/' :: chars ++ rest)) else (.stray, 0)) = _
  rw [inside]
  rfl

/-- A comparison is complete if no equals sign follows. -/
theorem ends_comparison {gap : List Char} (blank : ∀ c ∈ gap, isGap c = true) (op : Comparison)
    {rest : List Char} (stops : Stops (fun c => c = '=') rest) :
    Ends ⟨gap, .comparison op, op.spelling.toList⟩ rest := by
  have longer : rest.head? ≠ some '=' := by
    intro next
    simpa using stops '=' next
  cases op with
  | eq => exact ⟨blank, '=', ['='], rfl, rfl, rfl⟩
  | ne => exact ⟨blank, '!', ['='], rfl, rfl, rfl⟩
  | ge => exact ⟨blank, '>', ['='], rfl, rfl, rfl⟩
  | le => exact ⟨blank, '<', ['='], rfl, rfl, rfl⟩
  | gt =>
      refine ⟨blank, '>', [], rfl, rfl, ?_⟩
      change orComparison (.comparison .gt) .ge rest = _
      rw [orComparison, if_neg longer]
      rfl
  | lt =>
      refine ⟨blank, '<', [], rfl, rfl, ?_⟩
      change orComparison (.comparison .lt) .le rest = _
      rw [orComparison, if_neg longer]
      rfl

/-- So is the sign of an assignment. -/
theorem ends_equals {gap : List Char} (blank : ∀ c ∈ gap, isGap c = true)
    {rest : List Char} (stops : Stops (fun c => c = '=') rest) :
    Ends ⟨gap, .equals, ['=']⟩ rest := by
  have longer : rest.head? ≠ some '=' := by
    intro next
    simpa using stops '=' next
  refine ⟨blank, '=', [], rfl, rfl, ?_⟩
  change orComparison .equals .eq rest = _
  rw [orComparison, if_neg longer]
  rfl

end Lexeme

end LineScript
