import LineScript.Proofs.TokenPlace
import LineScript.Proofs.Lexeme

/-!
# A line is its tokens and its gaps

Cutting a line loses nothing. Its tokens stand behind one another, each is spelled by the characters
between its column and its stop, and what no token covers is a gap: a space, a tab or a carriage
return. So a line is its lexemes in order, each with the gap in front of it, and a last gap.

`Laid` is this decomposition together with the fact that each lexeme ends where it does because of
what follows it. `Cut.exists_laid` finds it for every text, and `scan_laid` shows that the tokens
are those lexemes, so the two say the same about a line.
-/

namespace LineScript

/-- The kind and the characters of a token. -/
def Token.written (token : Token) : TokenKind × List Char :=
  (token.kind, token.text)

/-- The kind and the characters of a lexeme. -/
def Lexeme.written (lexeme : Lexeme) : TokenKind × List Char :=
  (lexeme.kind, lexeme.text)

theorem Lexeme.map_written_tokens (col : Nat) (lexemes : List Lexeme) :
    (tokens col lexemes).map Token.written = lexemes.map Lexeme.written := by
  induction lexemes generalizing col with
  | nil => rfl
  | cons lexeme rest ih => rw [tokens, List.map_cons, ih, List.map_cons, Token.written, written]

/-- A gap in front of laid out lexemes belongs to the first of them, or is the last gap. -/
theorem Laid.cons_gap {c : Char} {lexemes : List Lexeme} {last : List Char}
    (blank : isGap c = true) (laid : Laid last lexemes) (col : Nat) :
    ∃ lexemes' last', Laid last' lexemes' ∧
      Lexeme.write lexemes' ++ last' = c :: (Lexeme.write lexemes ++ last) ∧
      Lexeme.tokens col lexemes' = Lexeme.tokens (col + 1) lexemes := by
  cases lexemes with
  | nil =>
      refine ⟨[], c :: last, ?_, rfl, rfl⟩
      intro d mem
      rcases List.mem_cons.mp mem with rfl | inLast
      · exact blank
      · exact laid d inLast
  | cons lexeme rest =>
      refine ⟨{ lexeme with gap := c :: lexeme.gap } :: rest, last, ⟨⟨?_, laid.1.token⟩, laid.2⟩,
        rfl, ?_⟩
      · intro d mem
        rcases List.mem_cons.mp mem with rfl | inGap
        · exact blank
        · exact laid.1.gap d inGap
      · have first : col + (c :: lexeme.gap).length = col + 1 + lexeme.gap.length := by
          rw [List.length_cons]
          omega
        have behind : col + ((c :: lexeme.gap).length + lexeme.text.length) =
            col + 1 + (lexeme.gap.length + lexeme.text.length) := by
          rw [List.length_cons]
          omega
        rw [Lexeme.tokens, Lexeme.tokens]
        dsimp only
        rw [first, behind]

/-- Every text is laid out as its tokens are. -/
theorem Cut.exists_laid {col : Nat} {chars : List Char} {tokens : List Token}
    (cut : Cut col chars tokens) :
    ∃ lexemes last, Laid last lexemes ∧ Lexeme.write lexemes ++ last = chars ∧
      Lexeme.tokens col lexemes = tokens := by
  induction cut with
  | done col => exact ⟨[], [], by simp [Laid], rfl, rfl⟩
  | @gap col c rest tokens blank _ ih =>
      obtain ⟨lexemes, last, laid, rfl, rfl⟩ := ih
      exact laid.cons_gap blank col
  | @token col c rest kind more tokens visible longest _ ih =>
      obtain ⟨lexemes, last, laid, written, rfl⟩ := ih
      have inside := tokenAt_le c rest
      rw [longest] at inside
      have whole : rest.take more ++ (Lexeme.write lexemes ++ last) = rest := by
        rw [written, List.take_append_drop]
      have length : (rest.take more).length = more := List.length_take_of_le inside
      refine ⟨⟨[], kind, c :: rest.take more⟩ :: lexemes, last, ⟨⟨by simp, ?_⟩, laid⟩, ?_, ?_⟩
      · exact ⟨c, rest.take more, rfl, visible, by rw [whole, longest, length]⟩
      · rw [Lexeme.write, List.nil_append, List.append_assoc, List.cons_append, whole]
      · rw [Lexeme.tokens, List.length_nil, List.length_cons, length, Nat.zero_add, Nat.add_zero]

/-- Every line is laid out as its tokens are. -/
theorem exists_laid (line : Line) :
    ∃ lexemes last, Laid last lexemes ∧ Lexeme.write lexemes ++ last = line ∧
      Lexeme.tokens 0 lexemes = scan line :=
  (cut_scan line).exists_laid

theorem Laid.gap_last {lexemes : List Lexeme} {last : List Char} (laid : Laid last lexemes) :
    ∀ c ∈ last, isGap c = true := by
  induction lexemes with
  | nil => exact laid
  | cons lexeme rest ih => exact ih laid.2

theorem Laid.gap {lexemes : List Lexeme} {last : List Char} (laid : Laid last lexemes) :
    ∀ lexeme ∈ lexemes, ∀ c ∈ lexeme.gap, isGap c = true := by
  induction lexemes with
  | nil =>
      intro lexeme mem
      cases mem
  | cons first rest ih =>
      intro lexeme mem
      rcases List.mem_cons.mp mem with rfl | behind
      · exact laid.1.gap
      · exact ih laid.2 lexeme behind

/-! ## Order -/

/-- The tokens of a text stand behind one another. -/
theorem Cut.ordered {col : Nat} {chars : List Char} {tokens : List Token}
    (cut : Cut col chars tokens) :
    tokens.Pairwise fun earlier later => earlier.stop ≤ later.col := by
  induction cut with
  | done col => exact .nil
  | gap blank _ ih => exact ih
  | @token col c rest kind more tokens visible longest behind ih =>
      refine List.pairwise_cons.mpr ⟨?_, ih⟩
      intro later mem
      have after := (behind.stands later mem).after
      have length := List.length_take_le more rest
      change col + (c :: rest.take more).length ≤ later.col
      rw [List.length_cons]
      omega

/-- A character that no token covers is a gap. -/
theorem Cut.gap_of_uncovered {col : Nat} {chars : List Char} {tokens : List Token}
    (cut : Cut col chars tokens) {index : Nat} {d : Char} (here : chars[index]? = some d)
    (uncovered : ∀ token ∈ tokens, ¬ (token.col ≤ col + index ∧ col + index < token.stop)) :
    isGap d = true := by
  induction cut generalizing index with
  | done col => cases here
  | @gap col c rest tokens blank _ ih =>
      cases index with
      | zero =>
          cases here
          exact blank
      | succ index =>
          rw [List.getElem?_cons_succ] at here
          rw [show col + (index + 1) = col + 1 + index by omega] at uncovered
          exact ih here uncovered
  | @token col c rest kind more tokens visible longest behind ih =>
      have first := uncovered _ List.mem_cons_self
      have inside := (List.getElem?_eq_some_iff.mp here).1
      rw [List.length_cons] at inside
      change ¬ (col ≤ col + index ∧ col + index < col + (c :: rest.take more).length) at first
      rw [List.length_cons, List.length_take] at first
      obtain ⟨index, rfl⟩ : ∃ n, index = more + 1 + n := ⟨index - (more + 1), by omega⟩
      rw [show more + 1 + index = more + index + 1 by omega, List.getElem?_cons_succ,
        ← List.getElem?_drop] at here
      refine ih here fun token mem covered => uncovered token (List.mem_cons_of_mem _ mem) ?_
      rwa [show col + (more + 1 + index) = col + (more + 1) + index by omega]

/-! ## Nothing is lost -/

/-- The tokens of a line account for all of it but for gaps, and tell the true columns. -/
structure Recovers (text : Line) (tokens : List Token) : Prop where
  nonempty : ∀ token ∈ tokens, token.text ≠ []
  inside : ∀ token ∈ tokens, token.stop ≤ text.length
  spelled : ∀ token ∈ tokens, text.extract token.col token.stop = token.text
  ordered : tokens.Pairwise fun earlier later => earlier.stop ≤ later.col
  gaps : ∀ col c, text[col]? = some c →
    (∀ token ∈ tokens, ¬ (token.col ≤ col ∧ col < token.stop)) → isGap c = true
  /-- The line is its tokens, each behind a gap, and a last gap. -/
  woven : ∃ lexemes last, (∀ lexeme ∈ lexemes, ∀ c ∈ lexeme.gap, isGap c = true) ∧
    (∀ c ∈ last, isGap c = true) ∧ Lexeme.tokens 0 lexemes = tokens ∧
    Lexeme.write lexemes ++ last = text
  /-- The columns are not clamped on a line that can be counted. -/
  exact : ∀ token ∈ tokens, (Pos.clamped 0 token.col).col.toNat = token.col ∧
    (Pos.clamped 0 token.stop).col.toNat = token.stop

/-- Cutting a line loses nothing but its gaps. -/
theorem scan_recovers {line : Line} (fits : line.length < UInt32.size) :
    Recovers line (scan line) := by
  have cut := cut_scan line
  have inside : ∀ token ∈ scan line, token.stop ≤ line.length := by
    intro token mem
    have bound := (cut.stands token mem).stop_le
    rwa [Nat.zero_add] at bound
  constructor
  case nonempty => exact fun token mem => (cut.stands token mem).nonempty
  case inside => exact inside
  case spelled =>
    intro token mem
    have starts := (cut.stands token mem).chars
    rw [Nat.sub_zero] at starts
    rw [List.extract_eq_take_drop, Token.stop, Nat.add_sub_cancel_left]
    exact (List.prefix_iff_eq_take.mp starts).symm
  case ordered => exact cut.ordered
  case gaps =>
    intro col c here uncovered
    refine cut.gap_of_uncovered here ?_
    rwa [Nat.zero_add]
  case woven =>
    obtain ⟨lexemes, last, laid, written, tokens⟩ := exists_laid line
    exact ⟨lexemes, last, laid.gap, laid.gap_last, tokens, written⟩
  case exact =>
    intro token mem
    have stop := inside token mem
    have col : token.col ≤ token.stop := Nat.le_add_right _ _
    exact ⟨Pos.clamped_col 0 (by omega), Pos.clamped_col 0 (by omega)⟩

/-- Two lines, with a letter that begins no token and a quotation that is not closed. -/
def unfinished : Line :=
  "var \u00e9 = 1;\n\tprint \"\u00e9".toList

theorem scan_recovers_unfinished :
    unfinished.length < UInt32.size ∧ Recovers unfinished (scan unfinished) := by
  have fits : unfinished.length < UInt32.size := by decide
  exact ⟨fits, scan_recovers fits⟩

end LineScript
