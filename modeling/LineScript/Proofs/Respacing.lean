import LineScript.Proofs.Interleaving
import LineScript.Proofs.Bare

/-!
# Spacing does not matter

The tokens of a line are found again if their texts are joined with single spaces, behind any
indentation. A token is the same before a gap as it is before anything else. Only a comment and a
quotation that is not closed run to the end of their line. On one line nothing stands behind them,
but in a text of several lines they would draw in the next one.

The form of a line is read off the kinds and the texts of its tokens, so it is the same as well, up
to the columns in it and to the text that a fault quotes.
-/

namespace LineScript

/-! ## A token before a gap -/

/-- No gap is of a class that a token is a run of. -/
theorem stops_of_gap {p : Char → Bool} {tail : List Char}
    (gap : ∀ d ∈ tail.head?, isGap d = true) (gaps : ∀ {d}, isGap d = true → p d = false) :
    Stops p tail :=
  fun d first => gaps (gap d first)

section

variable {c : Char} {more rest tail : List Char} {kind : TokenKind}
  (gap : ∀ d ∈ tail.head?, isGap d = true)

include gap

theorem head?_ne_of_gap {sign : Char} (visible : isGap sign = false) : tail.head? ≠ some sign := by
  intro first
  exact absurd (visible.symm.trans (gap sign first)) Bool.noConfusion

theorem orComparison_before_gap {alone : TokenKind} {op : Comparison}
    (taken : orComparison alone op (more ++ rest) = (kind, more.length)) :
    orComparison alone op (more ++ tail) = (kind, more.length) := by
  unfold orComparison at taken ⊢
  split at taken
  · next equals =>
    obtain ⟨rfl, length⟩ := Prod.mk.inj taken
    obtain ⟨d, rfl⟩ := List.length_eq_one_iff.mp length.symm
    exact if_pos equals
  · next equals =>
    obtain ⟨rfl, length⟩ := Prod.mk.inj taken
    obtain rfl := List.length_eq_zero_iff.mp length.symm
    exact if_neg (head?_ne_of_gap gap rfl)

theorem comment_before_gap
    (taken : (if (more ++ rest).head? = some '/' then
      (TokenKind.comment, runLength (fun d => d ≠ '\n') (more ++ rest)) else (.stray, 0)) =
        (kind, more.length))
    (last : Stops (fun d => d ≠ '\n') rest → tail = []) :
    (if (more ++ tail).head? = some '/' then
      (TokenKind.comment, runLength (fun d => d ≠ '\n') (more ++ tail)) else (.stray, 0)) =
        (kind, more.length) := by
  split at taken
  · next second =>
    obtain ⟨rfl, length⟩ := Prod.mk.inj taken
    obtain ⟨all, ends⟩ := stops_of_runLength length
    obtain rfl := last ends
    cases more with
    | nil =>
        -- The second slash belongs to the comment.
        exact absurd (ends '/' second) (by decide)
    | cons d more =>
        rw [runLength_of_stops all (stops_nil _)]
        exact if_pos second
  · obtain ⟨rfl, length⟩ := Prod.mk.inj taken
    obtain rfl := List.length_eq_zero_iff.mp length.symm
    exact if_neg (head?_ne_of_gap gap rfl)

omit gap in
theorem quotation_before_gap (taken : quotation (more ++ rest) = (kind, more.length))
    (last : Stops (fun d => d ≠ '\n') rest → tail = []) :
    quotation (more ++ tail) = (kind, more.length) := by
  obtain ⟨inside, behind, whole, plain, ⟨after, rfl⟩ | ends⟩ := exists_inside (more ++ rest)
  · rw [whole, quotation_closed plain] at taken
    obtain ⟨rfl, length⟩ := Prod.mk.inj taken
    rw [← List.singleton_append, ← List.append_assoc] at whole
    obtain ⟨rfl, -⟩ := List.append_inj whole (by simpa using length.symm)
    rw [List.append_assoc, List.singleton_append, quotation_closed plain]
    simp
  · rw [whole, quotation_unclosed plain ends] at taken
    obtain ⟨rfl, length⟩ := Prod.mk.inj taken
    obtain ⟨rfl, rfl⟩ := List.append_inj whole length.symm
    obtain rfl := last ends
    exact quotation_unclosed plain (stops_nil _)

/-- A token is the same before a gap as it is before anything else, unless it runs to the end of
its line. Then nothing may follow. -/
theorem tokenAt_before_gap (taken : tokenAt c (more ++ rest) = (kind, more.length))
    (last : Stops (fun d => d ≠ '\n') rest → tail = []) :
    tokenAt c (more ++ tail) = (kind, more.length) := by
  revert taken
  unfold tokenAt
  split
  · next start =>
    intro taken
    obtain ⟨rfl, length⟩ := Prod.mk.inj taken
    obtain ⟨all, -⟩ := stops_of_runLength length
    have run := runLength_of_stops all (stops_of_gap gap isNameChar_of_isGap)
    dsimp only
    rw [run, length, List.take_left, List.take_left]
  · split
    · next digit =>
      intro taken
      obtain ⟨rfl, length⟩ := Prod.mk.inj taken
      obtain ⟨all, -⟩ := stops_of_runLength length
      rw [runLength_of_stops all (stops_of_gap gap isDigit_of_isGap)]
    · split
      case h_1 => exact fun taken => comment_before_gap gap taken last
      case h_2 => exact fun taken => quotation_before_gap taken last
      case h_3 => exact orComparison_before_gap gap
      case h_4 => exact orComparison_before_gap gap
      case h_5 => exact orComparison_before_gap gap
      case h_6 => exact orComparison_before_gap gap
      all_goals exact id

end

/-- A lexeme before a gap ends as it does before anything else, unless it runs to the end of its
line. -/
theorem Lexeme.Ends.before_gap {lexeme : Lexeme} {rest tail : List Char} (ends : lexeme.Ends rest)
    (gap : ∀ d ∈ tail.head?, isGap d = true)
    (last : Stops (fun d => d ≠ '\n') rest → tail = []) : lexeme.Ends tail := by
  obtain ⟨c, more, text, visible, token⟩ := ends.token
  exact ⟨ends.gap, c, more, text, visible, tokenAt_before_gap gap token last⟩

/-! ## Single spaces -/

/-- The lexemes with a space between any two of them. -/
def Lexeme.respace : List Lexeme → List Lexeme
  | [] => []
  | first :: rest => { first with gap := [] } :: rest.map Lexeme.spaced

theorem Lexeme.head?_write_spaced (lexemes : List Lexeme) :
    ∀ c ∈ (write (lexemes.map spaced)).head?, isGap c = true := by
  intro c mem
  cases lexemes with
  | nil => cases mem
  | cons first rest =>
      cases mem
      rfl

theorem Laid.eq_nil_of_write {lexemes : List Lexeme} {last : List Char} (laid : Laid last lexemes)
    (empty : Lexeme.write lexemes = []) : lexemes = [] := by
  cases lexemes with
  | nil => rfl
  | cons lexeme rest =>
      obtain ⟨c, more, text, -⟩ := laid.1.token
      rw [Lexeme.write, text] at empty
      simp at empty

/-- The lexemes of one line still end where they do, with single spaces between them. -/
theorem Laid.apart_spaced {lexemes : List Lexeme} {last : List Char} (laid : Laid last lexemes)
    (oneLine : '\n' ∉ Lexeme.write lexemes ++ last) : Lexeme.Apart (lexemes.map Lexeme.spaced) := by
  induction lexemes with
  | nil => trivial
  | cons lexeme rest ih =>
      have behind : '\n' ∉ Lexeme.write rest ++ last := by
        intro mem
        apply oneLine
        rw [Lexeme.write, List.append_assoc]
        exact List.mem_append_right _ mem
      refine ⟨laid.1.spaced.before_gap (Lexeme.head?_write_spaced rest) ?_, ih laid.2 behind⟩
      intro stops
      -- Nothing ends the line, so nothing follows on it.
      have none : Lexeme.write rest ++ last = [] := by
        cases follows : Lexeme.write rest ++ last with
        | nil => rfl
        | cons c more =>
            rw [follows] at stops behind
            have newline : c = '\n' := by simpa using stops c rfl
            exact absurd (newline ▸ List.mem_cons_self) behind
      rw [laid.2.eq_nil_of_write (List.append_eq_nil_iff.mp none).1]
      rfl

theorem Laid.apart_respace {lexemes : List Lexeme} {last : List Char} (laid : Laid last lexemes)
    (oneLine : '\n' ∉ Lexeme.write lexemes ++ last) : Lexeme.Apart (Lexeme.respace lexemes) := by
  have spaced := laid.apart_spaced oneLine
  cases lexemes with
  | nil => trivial
  | cons first rest => exact ⟨⟨by simp, spaced.1.token⟩, spaced.2⟩

theorem Lexeme.map_written_respace (lexemes : List Lexeme) :
    (respace lexemes).map Lexeme.written = lexemes.map Lexeme.written := by
  cases lexemes with
  | nil => rfl
  | cons first rest =>
      rw [respace, List.map_cons, List.map_map, List.map_cons]
      rfl

theorem Lexeme.write_spaced (lexemes : List Lexeme) :
    write (lexemes.map spaced) = lexemes.flatMap fun lexeme => ' ' :: lexeme.text := by
  induction lexemes with
  | nil => rfl
  | cons lexeme rest ih => rw [List.map_cons, write, ih]; rfl

theorem intercalate_space (first : List Char) (rest : List (List Char)) :
    [' '].intercalate (first :: rest) = first ++ rest.flatMap fun text => ' ' :: text := by
  induction rest generalizing first with
  | nil => rw [List.intercalate_singleton, List.flatMap_nil, List.append_nil]
  | cons second rest ih =>
      rw [List.intercalate_cons_cons, ih, List.flatMap_cons, List.append_assoc]
      rfl

/-- The texts of tokens, joined with single spaces. -/
def joinTexts (tokens : List Token) : Line :=
  [' '].intercalate (tokens.map Token.text)

theorem Lexeme.write_respace (col : Nat) (lexemes : List Lexeme) :
    write (respace lexemes) = joinTexts (tokens col lexemes) := by
  have texts : (tokens col lexemes).map Token.text = lexemes.map Lexeme.text := by
    have written := congrArg (List.map Prod.snd) (map_written_tokens col lexemes)
    rwa [List.map_map, List.map_map] at written
  rw [joinTexts, texts]
  cases lexemes with
  | nil => rfl
  | cons first rest =>
      rw [List.map_cons, intercalate_space, List.flatMap_map, ← write_spaced]
      rfl

/-- A line is cut into the same tokens if it is written with single spaces between them. -/
theorem map_written_scan_joinTexts {indent line : Line} (blank : ∀ c ∈ indent, isGap c = true)
    (oneLine : '\n' ∉ line) :
    (scan (indent ++ joinTexts (scan line))).map Token.written = (scan line).map Token.written := by
  obtain ⟨lexemes, last, laid, rfl, tokens⟩ := exists_laid line
  rw [← tokens, ← Lexeme.write_respace, scan_write blank (laid.apart_respace oneLine),
    Lexeme.map_written_tokens, Lexeme.map_written_tokens, Lexeme.map_written_respace]

/-! ## Forms without columns -/

/-- The labelling that takes the columns away, and the text that a fault quotes. -/
def Relabeling.columnless : Relabeling where
  pos place := ⟨place.line, 0⟩
  fault reason := ⟨reason.cause.bare, ⟨reason.pos.line, 0⟩⟩
  undeclared _ _ := rfl
  sumOutOfRange _ _ _ := rfl

/-- A form without its columns, and without the text that a fault quotes. -/
def Form.columnless (form : Form) : Form :=
  form.relabel .columnless

/-- The token as the first of its line. -/
def Token.flat (token : Token) : Token :=
  { token with col := 0 }

theorem Relabeling.moves_columnless (line : Nat) :
    Relabeling.columnless.Moves line line Token.flat where
  kind _ := rfl
  text _ := rfl
  pos _ := rfl
  literal _ _ := rfl
  function _ _ := rfl

theorem Relabeling.rewords_columnless (line : Nat) (text : Line) :
    Relabeling.columnless.Rewords line text line [] where
  unknown := rfl
  unterminated := rfl

/-- Up to columns and the quoted text, the form of a line is that of its tokens. -/
theorem Form.columnless_ofLine (index : Nat) (line : Line) :
    (ofLine index line).columnless = ofTokens index [] ((scan line).map Token.flat) :=
  ((Relabeling.moves_columnless index).ofTokens (Relabeling.rewords_columnless index line)
    (scan line)).symm

theorem Form.columnless_congr {line line' : Line}
    (same : (scan line').map Token.written = (scan line).map Token.written) (index : Nat) :
    (ofLine index line').columnless = (ofLine index line).columnless := by
  have flat (tokens : List Token) : tokens.map Token.flat =
      (tokens.map Token.written).map fun written => ⟨written.1, written.2, 0⟩ := by
    rw [List.map_map]
    rfl
  rw [columnless_ofLine, columnless_ofLine, flat, flat, same]

/-- The spaces between the tokens of a line do not matter: with a single space between any two of
them, behind any indentation, the line has the same tokens and the same form. -/
theorem scan_respaced {indent line : Line} (blank : ∀ c ∈ indent, isGap c = true)
    (oneLine : '\n' ∉ line) :
    (scan (indent ++ joinTexts (scan line))).map Token.written = (scan line).map Token.written ∧
      ∀ index, (Form.ofLine index (indent ++ joinTexts (scan line))).columnless =
        (Form.ofLine index line).columnless := by
  have same := map_written_scan_joinTexts blank oneLine
  exact ⟨same, Form.columnless_congr same⟩

/-- The head of a block without any spaces, with a comment that quotes. -/
def gluedBranch : Line :=
  "if(x>==01\x7b//\"".toList

theorem scan_respaced_gluedBranch :
    ((∀ c ∈ ['\t'], isGap c = true) ∧ '\n' ∉ gluedBranch) ∧
      (scan (['\t'] ++ joinTexts (scan gluedBranch))).map Token.written =
        (scan gluedBranch).map Token.written ∧
      ∀ index, (Form.ofLine index (['\t'] ++ joinTexts (scan gluedBranch))).columnless =
        (Form.ofLine index gluedBranch).columnless := by
  have blank : ∀ c ∈ ['\t'], isGap c = true := by
    intro c mem
    cases List.mem_singleton.mp mem
    rfl
  have oneLine : '\n' ∉ gluedBranch := by decide
  exact ⟨⟨blank, oneLine⟩, scan_respaced blank oneLine⟩

/-- In a text of two lines a comment draws in the second one. -/
example :
    (scan (joinTexts (scan "//\n1".toList))).map Token.written ≠
      (scan "//\n1".toList).map Token.written := by
  decide +kernel

end LineScript
