import LineScript.Stmt.Block
import LineScript.Proofs.Lexeme
import LineScript.Proofs.TokenPlace
import LineScript.Proofs.WrittenBraces

/-!
# Asides

An aside is a text without code and without braces: blanks, a comment, or blanks and then a comment.
Written behind a line, with a gap in front, it changes nothing of the code of the line, unless the
line ends in a quotation that is not finished, which then runs on into the aside.

Code is also read from the middle of a line, behind a brace, where a quotation of the line may look
unfinished. There an aside may change the tokens, but the text before it and with it has a quotation
either way, so both are code, and neither opens the other block of a choice.
-/

namespace LineScript

/-! ## Unfinished quotations -/

/-- A quotation, finished or not. Other characters that begin no token are counted too. -/
def Token.IsQuote (token : Token) : Prop :=
  token.kind = .quoted ∨ token.kind = .stray

/-- Whether the last token of a text is a quotation without its closing quote. -/
def endsOpen (text : Line) : Bool :=
  (scan text).getLast?.any fun token => token.kind = .stray && token.text.head? = some '"'

/-! ## Texts without code -/

/-- A text that may follow a line without adding to it: it begins with a gap if it is not empty,
nothing but a comment follows the gap, and there are no braces in it. -/
structure IsAside (tail : Line) : Prop where
  gap : ∀ c ∈ tail.head?, isGap c = true
  quiet : ∀ col, codeTokens (scanOnto [] col tail) = []
  free : ∀ c ∈ tail, Brace.ofChar? c = none

/-- A line without code and without braces. -/
structure IsIdle (row : Line) : Prop where
  quiet : scanCode row = []
  free : ∀ c ∈ row, Brace.ofChar? c = none

theorem isAside_nil : IsAside [] where
  gap := by simp
  quiet col := by
    rw [scanOnto]
    rfl
  free := by simp

theorem isIdle_nil : IsIdle [] :=
  ⟨isAside_nil.quiet 0, isAside_nil.free⟩

/-- Blanks and then, perhaps, a comment. -/
theorem codeTokens_scanOnto_comment {gap rest : List Char} (blank : ∀ c ∈ gap, isGap c = true)
    (comment : rest = [] ∨ ∃ c, rest = '/' :: '/' :: c) (plain : '\n' ∉ rest) (col : Nat) :
    codeTokens (scanOnto [] col (gap ++ rest)) = [] := by
  rw [scanOnto_gap blank]
  rcases comment with rfl | ⟨c, rfl⟩
  · exact isAside_nil.quiet _
  · have ends : Lexeme.Ends ⟨[], .comment, '/' :: '/' :: c⟩ [] := by
      apply Lexeme.ends_comment
      · simp
      · rintro d mem rfl
        exact plain (by simp [mem])
      · exact stops_nil _
    have scanned := scanOnto_lexeme ends [] (col + gap.length)
    rw [List.nil_append, List.append_nil] at scanned
    rw [scanned, scanOnto]
    rfl

theorem free_append_of_gap {gap rest : List Char} (blank : ∀ c ∈ gap, isGap c = true)
    (free : ∀ c ∈ rest, Brace.ofChar? c = none) : ∀ c ∈ gap ++ rest, Brace.ofChar? c = none := by
  intro c mem
  rcases List.mem_append.mp mem with inGap | inRest
  · exact ofChar?_eq_none rfl rfl (blank c inGap)
  · exact free c inRest

/-- A comment behind a gap is an aside, and so is a gap alone. -/
theorem isAside_of_comment {gap rest : List Char} (blank : ∀ c ∈ gap, isGap c = true)
    (nonempty : gap ≠ []) (comment : rest = [] ∨ ∃ c, rest = '/' :: '/' :: c)
    (plain : '\n' ∉ rest) (free : ∀ c ∈ rest, Brace.ofChar? c = none) : IsAside (gap ++ rest) where
  gap := by
    intro c first
    rw [List.head?_append, List.head?_eq_some_head nonempty, Option.some_or] at first
    exact blank c (Option.mem_some.mp first ▸ List.head_mem nonempty)
  quiet := codeTokens_scanOnto_comment blank comment plain
  free := free_append_of_gap blank free

/-- A line that is blank up to a comment or to its end is idle. -/
theorem isIdle_of_comment {gap rest : List Char} (blank : ∀ c ∈ gap, isGap c = true)
    (comment : rest = [] ∨ ∃ c, rest = '/' :: '/' :: c) (plain : '\n' ∉ rest)
    (free : ∀ c ∈ rest, Brace.ofChar? c = none) : IsIdle (gap ++ rest) :=
  ⟨codeTokens_scanOnto_comment blank comment plain 0, free_append_of_gap blank free⟩

/-! ## Tokens before an aside -/

/-- A run that ends inside a text is not longer in a longer text. -/
theorem runLength_append_of_lt {p : Char → Bool} {rest : List Char}
    (short : runLength p rest < rest.length) (tail : List Char) :
    runLength p (rest ++ tail) = runLength p rest := by
  rw [runLength] at short
  rw [runLength, runLength, List.takeWhile_append, if_neg (Nat.ne_of_lt short)]

/-- The characters that a quotation may have inside it. -/
def isInside (c : Char) : Bool :=
  c ≠ '"' && c ≠ '\n'

theorem quotation_eq (rest : List Char) :
    quotation rest =
      if (rest.drop (runLength isInside rest)).head? = some '"' then
        (.quoted, runLength isInside rest + 1)
      else (.stray, runLength isInside rest) := rfl

theorem quotation_of_lt {rest : List Char} (inside : runLength isInside rest < rest.length)
    (tail : List Char) :
    quotation (rest ++ tail) = quotation rest ∧ (quotation rest).2 ≤ rest.length := by
  have next : ((rest ++ tail).drop (runLength isInside rest)).head? =
      (rest.drop (runLength isInside rest)).head? := by
    rw [List.head?_drop, List.head?_drop, List.getElem?_append_left inside]
  rw [quotation_eq, quotation_eq, runLength_append_of_lt inside, next]
  refine ⟨rfl, ?_⟩
  split
  · exact inside
  · exact Nat.le_of_lt inside

theorem quotation_of_le {rest : List Char} (whole : rest.length ≤ runLength isInside rest) :
    quotation rest = (.stray, rest.length) := by
  rw [quotation_eq, Nat.le_antisymm (runLength_le _ rest) whole, List.drop_length,
    if_neg (by simp)]

theorem quotation_kind (rest : List Char) :
    (quotation rest).1 = .quoted ∨ (quotation rest).1 = .stray := by
  unfold quotation
  dsimp only
  split
  · exact .inl rfl
  · exact .inr rfl

/-- What becomes of the token that `c` begins if `tail` follows the rest of its line: it stays, or
it is a comment, or a quotation that is not finished. -/
inductive Keeps (c : Char) (rest tail : List Char) : Prop
  | same (unchanged : tokenAt c (rest ++ tail) = tokenAt c rest)
      (inside : (tokenAt c rest).2 ≤ rest.length)
  | comment (alone : (tokenAt c rest).1 = .comment)
      (longer : (tokenAt c (rest ++ tail)).1 = .comment)
  | quote (first : c = '"') (alone : tokenAt c rest = (.stray, rest.length))
      (longer : (tokenAt c (rest ++ tail)).1 = .quoted ∨ (tokenAt c (rest ++ tail)).1 = .stray)

namespace IsAside

variable {tail : Line} (aside : IsAside tail)

include aside

theorem runLength_append {p : Char → Bool} (gaps : ∀ {c}, isGap c = true → p c = false)
    (rest : List Char) : runLength p (rest ++ tail) = runLength p rest := by
  rw [runLength, runLength, List.takeWhile_append]
  split
  · next whole =>
    have stops : ([] ++ tail).takeWhile p = [] :=
      takeWhile_of_stops (by simp) fun c first => gaps (aside.gap c first)
    rw [List.nil_append] at stops
    rw [stops, List.append_nil, (List.takeWhile_sublist p).eq_of_length whole]
  · rfl

theorem head?_append (sign : Char) (visible : isGap sign = false) (rest : List Char) :
    (rest ++ tail).head? = some sign ↔ rest.head? = some sign := by
  cases rest with
  | nil =>
      rw [List.nil_append]
      constructor
      · intro first
        rw [aside.gap sign first] at visible
        cases visible
      · intro first
        cases first
  | cons c rest => rfl

theorem orComparison_append (kind : TokenKind) (op : Comparison) (rest : List Char) :
    orComparison kind op (rest ++ tail) = orComparison kind op rest := by
  simp only [orComparison, aside.head?_append '=' rfl]

theorem tokenAt_append {c : Char} (slash : c ≠ '/') (quote : c ≠ '"') (rest : List Char) :
    tokenAt c (rest ++ tail) = tokenAt c rest := by
  unfold tokenAt
  dsimp only
  rw [aside.runLength_append isNameChar_of_isGap, aside.runLength_append isDigit_of_isGap,
    List.take_append_of_le_length (runLength_le _ rest)]
  split
  · rfl
  · split
    · rfl
    · split
      case h_1 => exact (slash rfl).elim
      case h_2 => exact (quote rfl).elim
      case h_3 => exact aside.orComparison_append _ _ rest
      case h_4 => exact aside.orComparison_append _ _ rest
      case h_5 => exact aside.orComparison_append _ _ rest
      case h_6 => exact aside.orComparison_append _ _ rest
      all_goals rfl

theorem keeps (c : Char) (rest : List Char) : Keeps c rest tail := by
  by_cases slash : c = '/'
  · subst slash
    have token (chars : List Char) : tokenAt '/' chars =
        if chars.head? = some '/' then (.comment, runLength (fun d => d ≠ '\n') chars)
        else (.stray, 0) := rfl
    by_cases second : rest.head? = some '/'
    · apply Keeps.comment
      · rw [token, if_pos second]
      · rw [token, if_pos ((aside.head?_append '/' rfl rest).mpr second)]
    · apply Keeps.same
      · rw [token, token, if_neg second, if_neg (mt (aside.head?_append '/' rfl rest).mp second)]
      · rw [token, if_neg second]
        exact Nat.zero_le _
  by_cases quote : c = '"'
  · subst quote
    have token (chars : List Char) : tokenAt '"' chars = quotation chars := rfl
    rcases Nat.lt_or_ge (runLength isInside rest) rest.length with inside | whole
    · obtain ⟨unchanged, within⟩ := quotation_of_lt inside tail
      exact .same unchanged within
    · exact .quote rfl (quotation_of_le whole) (quotation_kind _)
  · exact .same (aside.tokenAt_append slash quote rest) (tokenAt_le c rest)

end IsAside

/-! ## Code before an aside -/

/-- What the tokens of a text, `tokens`, have in common with those of a longer text: the code is the
same, or the text ends in a quotation that is not finished, and then there is a quotation in the
code of both. -/
inductive Continues (tokens longer : List Token) : Prop
  | same (code : codeTokens longer = codeTokens tokens)
  | runsOn (last : ∃ token ∈ tokens.getLast?, token.kind = .stray ∧ token.text.head? = some '"')
      (alone : ∃ token ∈ codeTokens tokens, token.IsQuote)
      (longer : ∃ token ∈ codeTokens longer, token.IsQuote)

theorem Continues.cons {tokens longer : List Token} (continues : Continues tokens longer)
    (token : Token) : Continues (token :: tokens) (token :: longer) := by
  by_cases comment : token.kind = .comment
  · apply Continues.same
    rw [codeTokens_cons_of_comment comment, codeTokens_cons_of_comment comment]
  · have code := codeTokens_cons_of_code comment
    cases continues with
    | same equal =>
        apply Continues.same
        rw [code, code, equal]
    | runsOn last alone longer =>
        obtain ⟨own, isLast, quote⟩ := last
        obtain ⟨one, inAlone, first⟩ := alone
        obtain ⟨two, inLonger, second⟩ := longer
        apply Continues.runsOn
        · refine ⟨own, ?_, quote⟩
          rw [List.getLast?_cons, Option.mem_def.mp isLast]
          rfl
        · rw [code]
          exact ⟨one, List.mem_cons_of_mem _ inAlone, first⟩
        · rw [code]
          exact ⟨two, List.mem_cons_of_mem _ inLonger, second⟩

theorem exists_quote (token : Token) (quote : token.IsQuote) (rest : List Token) :
    ∃ token' ∈ codeTokens (token :: rest), token'.IsQuote := by
  refine ⟨token, ?_, quote⟩
  rw [codeTokens_cons_of_code]
  · exact List.mem_cons_self
  · rcases quote with quoted | stray
    · simp [quoted]
    · simp [stray]

/-- An aside continues a text. -/
theorem Cut.continues {tail : Line} (aside : IsAside tail) {col : Nat} {chars : List Char}
    {tokens longer : List Token} (cut : Cut col chars tokens)
    (cut' : Cut col (chars ++ tail) longer) : Continues tokens longer := by
  induction cut generalizing longer with
  | done col =>
      apply Continues.same
      rw [cut'.eq_scanOnto]
      exact aside.quiet col
  | gap blank _ ih =>
      cases cut' with
      | gap _ behind' => exact ih behind'
      | token visible' _ _ => exact absurd (blank.symm.trans visible') Bool.noConfusion
  | @token col c rest kind more tokens visible longest behind ih =>
      cases cut' with
      | gap blank' _ => exact absurd (blank'.symm.trans visible) Bool.noConfusion
      | @token _ _ _ kind' more' longer _ longest' behind' =>
          change tokenAt c (rest ++ tail) = (kind', more') at longest'
          cases aside.keeps c rest with
          | same unchanged inside =>
              rw [longest, longest'] at unchanged
              cases unchanged
              rw [longest] at inside
              change Cut _ ((rest ++ tail).drop more) longer at behind'
              rw [List.drop_append_of_le_length inside] at behind'
              change Continues _ (⟨kind, c :: (rest ++ tail).take more, col⟩ :: longer)
              rw [List.take_append_of_le_length inside]
              exact (ih behind').cons _
          | comment alone comment =>
              apply Continues.same
              rw [longest] at alone
              rw [longest'] at comment
              rw [codeTokens_cons_of_comment comment, codeTokens_cons_of_comment alone]
          | quote first alone quote =>
              rw [longest'] at quote
              rw [longest] at alone
              cases alone
              subst first
              rw [List.drop_length] at behind
              cases behind
              exact .runsOn ⟨_, rfl, rfl, rfl⟩ (exists_quote _ (.inr rfl) [])
                (exists_quote ⟨kind', _, col⟩ quote _)

theorem not_opensOther_of_quote {text : Line} (quoted : ∃ token ∈ scanCode text, token.IsQuote) :
    opensOther text = false := by
  obtain ⟨token, mem, quote⟩ := quoted
  apply decide_eq_false
  intro kinds
  have kind : token.kind ∈ (scanCode text).map Token.kind := List.mem_map_of_mem mem
  rw [kinds] at kind
  rcases quote with quoted | stray
  · simp [quoted] at kind
  · simp [stray] at kind

section

variable {tail : Line} (aside : IsAside tail) (text : Line)

include aside

theorem IsAside.continues : Continues (scan text) (scan (text ++ tail)) :=
  (cut_scan text).continues aside (cut_scan (text ++ tail))

/-- An aside changes nothing of the code of a line, if its quotations are finished. -/
theorem IsAside.scanCode_append (closed : endsOpen text = false) :
    scanCode (text ++ tail) = scanCode text := by
  cases aside.continues text with
  | same code => exact code
  | runsOn last _ _ =>
      obtain ⟨token, mem, kind, first⟩ := last
      rw [endsOpen, Option.mem_def.mp mem] at closed
      simp [kind, first] at closed

/-- Wherever a text is cut off, an aside does not decide whether there is code in it, -/
theorem IsAside.scanCode_append_eq_nil : scanCode (text ++ tail) = [] ↔ scanCode text = [] := by
  cases aside.continues text with
  | same code =>
      change scanCode (text ++ tail) = scanCode text at code
      rw [code]
  | runsOn _ alone longer =>
      obtain ⟨one, inAlone, -⟩ := alone
      obtain ⟨two, inLonger, -⟩ := longer
      exact ⟨fun empty => absurd empty (List.ne_nil_of_mem inLonger),
        fun empty => absurd empty (List.ne_nil_of_mem inAlone)⟩

/-- nor whether it opens the other block of a choice. -/
theorem IsAside.opensOther_append : opensOther (text ++ tail) = opensOther text := by
  cases aside.continues text with
  | same code =>
      change scanCode (text ++ tail) = scanCode text at code
      rw [opensOther, opensOther, code]
  | runsOn _ alone longer =>
      rw [not_opensOther_of_quote alone, not_opensOther_of_quote longer]

end

/-! ## Braces before an aside -/

section

variable {tail : Line} (free : ∀ c ∈ tail, Brace.ofChar? c = none)

include free

theorem unmatched_append_of_free (text : Line) : unmatched (text ++ tail) = unmatched text := by
  rw [unmatched_append, unmatched_of_free free]
  simp

theorem depthChange_append_of_free (text : Line) :
    depthChange (text ++ tail) = depthChange text := by
  rw [depthChange_eq, depthChange_eq, unmatched_append_of_free free]

theorem leftOpen_drop_append (text : Line) (col : Nat) :
    leftOpen ((text ++ tail).drop col) = leftOpen (text.drop col) := by
  rw [leftOpen, leftOpen, List.drop_append, unmatched_append_of_free]
  exact fun c mem => free c (List.mem_of_mem_drop mem)

/-- The stack before a line is the same with an aside behind the line. -/
theorem pairText_append_aside (line col : Nat) (text : Line) (waiting : List Spot) :
    (pairText line col (text ++ tail) waiting).2 = (pairText line col text waiting).2 := by
  have behind := pairText_append_of_free free line (col + text.length) [] waiting
  rw [List.append_nil] at behind
  rw [pairText_append, behind, pairText_nil]

end

/-- A line without code is blank or a comment. -/
theorem Form.ofLine_of_quiet {row : Line} (quiet : scanCode row = []) (line : Nat) :
    ofLine line row = .action .blank ∨ ofLine line row = .action .comment := by
  unfold ofLine
  split
  · exact .inl rfl
  · next first rest scanned =>
    rw [scanCode, scanned] at quiet
    by_cases comment : first.kind = .comment
    · rw [if_pos comment]
      exact .inr rfl
    · rw [codeTokens_cons_of_code comment] at quiet
      cases quiet

end LineScript
