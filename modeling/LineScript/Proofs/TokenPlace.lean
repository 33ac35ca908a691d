import LineScript.Token.Scan

/-!
# Where tokens stand

The scanner keeps a column beside the characters that are left. `Cut` says without that state how
a text is cut: at each character either a gap is skipped or a token is taken, and the rest is cut
from the column behind it. Every fact about the tokens of a line is an induction on this relation.

A token stands where its column says: its characters are those of the line from there on, and its
kind fixes how it is spelled. A closing brace of a line is a token of its own unless an earlier
token covers it, and then the code behind it is that of the text behind it.
-/

namespace LineScript

/-- The characters `chars`, the first of which stands in column `col`, are cut into `tokens`. -/
inductive Cut : Nat → List Char → List Token → Prop
  | done (col) : Cut col [] []
  | gap {col c rest tokens} (blank : isGap c = true) (behind : Cut (col + 1) rest tokens) :
      Cut col (c :: rest) tokens
  | token {col c rest kind more tokens} (visible : isGap c = false)
      (longest : tokenAt c rest = (kind, more))
      (behind : Cut (col + (more + 1)) (rest.drop more) tokens) :
      Cut col (c :: rest) (⟨kind, c :: rest.take more, col⟩ :: tokens)

theorem cut_scanOnto (col : Nat) (chars : List Char) : Cut col chars (scanOnto [] col chars) := by
  induction left : chars.length using Nat.strongRecOn generalizing col chars with
  | ind n ih =>
      subst left
      cases chars with
      | nil =>
          rw [scanOnto]
          exact .done col
      | cons c rest =>
          rw [scanOnto]
          split
          · next blank => exact .gap blank (ih rest.length (by simp) _ rest rfl)
          · next visible =>
            have shorter : (rest.drop (tokenAt c rest).2).length < (c :: rest).length := by
              rw [List.length_drop, List.length_cons]
              omega
            rw [scanOnto_eq_append]
            exact .token (Bool.not_eq_true _ ▸ visible) rfl (ih _ shorter _ _ rfl)

theorem cut_scan (line : Line) : Cut 0 line (scan line) :=
  cut_scanOnto 0 line

/-- The tokens of a text do not depend on the tokens before it. -/
theorem Cut.eq_scanOnto {col : Nat} {chars : List Char} {tokens : List Token}
    (cut : Cut col chars tokens) : tokens = scanOnto [] col chars := by
  induction cut with
  | done col => rw [scanOnto]; rfl
  | gap blank _ ih => rw [scanOnto, if_pos blank, ih]
  | @token col c rest kind more tokens visible longest _ ih =>
      rw [scanOnto, if_neg (by simp [visible]), longest, scanOnto_eq_append, ← ih]
      rfl

/-! ## Spelling -/

/-- How a token of a kind may be spelled, for the kinds that stand for one word or for names. -/
def TokenKind.Spells : TokenKind → List Char → Prop
  | .keyword word, text => text = word.spelling.toList
  | .name, text => Keyword.ofChars? text = none ∧
      ∃ first more, text = first :: more ∧ isNameStart first = true ∧
        ∀ c ∈ more, isNameChar c = true
  | .openBrace, text => text = ['\x7b']
  | .closeBrace, text => text = ['\x7d']
  | _, _ => True

theorem Keyword.eq_spelling {chars : List Char} {word : Keyword}
    (found : Keyword.ofChars? chars = some word) : chars = word.spelling.toList := by
  have spelled := List.find?_some found
  exact (of_decide_eq_true spelled).symm

theorem spells_wordKind {c : Char} {more : List Char} (start : isNameStart c = true)
    (all : ∀ d ∈ more, isNameChar d = true) : (wordKind (c :: more)).Spells (c :: more) := by
  unfold wordKind
  split
  · next word found => exact Keyword.eq_spelling found
  · next free => exact ⟨free, c, more, rfl, start, all⟩

theorem take_runLength (p : Char → Bool) (chars : List Char) :
    chars.take (runLength p chars) = chars.takeWhile p :=
  (List.prefix_iff_eq_take.mp (List.takeWhile_prefix p)).symm

theorem mem_take_runLength {p : Char → Bool} {chars : List Char} {c : Char}
    (mem : c ∈ chars.take (runLength p chars)) : p c = true := by
  rw [take_runLength] at mem
  exact List.all_eq_true.mp List.all_takeWhile c mem

theorem runLength_le (p : Char → Bool) (rest : List Char) : runLength p rest ≤ rest.length :=
  (List.takeWhile_sublist p).length_le

theorem quotation_le (rest : List Char) : (quotation rest).2 ≤ rest.length := by
  unfold quotation
  dsimp only
  split
  · next quote =>
    rw [List.head?_drop] at quote
    exact (List.getElem?_eq_some_iff.mp quote).1
  · exact runLength_le _ rest

theorem orComparison_le (kind : TokenKind) (op : Comparison) (rest : List Char) :
    (orComparison kind op rest).2 ≤ rest.length := by
  cases rest with
  | nil => exact Nat.le_refl 0
  | cons c rest =>
      unfold orComparison
      split
      · simp
      · exact Nat.zero_le _

/-- The longest token lies inside its text. -/
theorem tokenAt_le (c : Char) (rest : List Char) : (tokenAt c rest).2 ≤ rest.length := by
  unfold tokenAt
  split
  · exact runLength_le _ rest
  · split
    · exact runLength_le _ rest
    · split
      case h_1 =>
        split
        · exact runLength_le _ rest
        · exact Nat.zero_le _
      case h_2 => exact quotation_le rest
      case h_3 => exact orComparison_le _ _ rest
      case h_4 => exact orComparison_le _ _ rest
      case h_5 => exact orComparison_le _ _ rest
      case h_6 => exact orComparison_le _ _ rest
      all_goals exact Nat.zero_le _

theorem spells_orComparison (kind : TokenKind) (op : Comparison) (rest text : List Char)
    (plain : kind.Spells text) : (orComparison kind op rest).1.Spells text := by
  unfold orComparison
  split
  · trivial
  · exact plain

theorem spells_quotation (rest text : List Char) : (quotation rest).1.Spells text := by
  unfold quotation
  dsimp only
  split
  · trivial
  · trivial

/-- The longest token is spelled as its kind says. -/
theorem spells_tokenAt (c : Char) (rest : List Char) :
    (tokenAt c rest).1.Spells (c :: rest.take (tokenAt c rest).2) := by
  unfold tokenAt
  split
  · next start => exact spells_wordKind start fun d mem => mem_take_runLength mem
  · split
    · trivial
    · split
      case h_1 =>
        split
        · trivial
        · trivial
      case h_2 => exact spells_quotation _ _
      case h_3 => exact spells_orComparison _ _ _ _ trivial
      case h_4 => exact spells_orComparison _ _ _ _ trivial
      case h_5 => exact spells_orComparison _ _ _ _ trivial
      case h_6 => exact spells_orComparison _ _ _ _ trivial
      case h_9 => rfl
      case h_10 => rfl
      all_goals trivial

/-! ## Places -/

/-- A token of a text that begins in column `col` stands where its column says. -/
structure Token.Stands (token : Token) (col : Nat) (chars : List Char) : Prop where
  after : col ≤ token.col
  chars : token.text <+: chars.drop (token.col - col)
  nonempty : token.text ≠ []
  spelled : token.kind.Spells token.text

theorem Cut.stands {col : Nat} {chars : List Char} {tokens : List Token}
    (cut : Cut col chars tokens) : ∀ token ∈ tokens, token.Stands col chars := by
  induction cut with
  | done col =>
      intro token mem
      cases mem
  | @gap col c rest tokens blank _ ih =>
      intro token mem
      obtain ⟨after, chars, nonempty, spelled⟩ := ih token mem
      refine ⟨by omega, ?_, nonempty, spelled⟩
      rw [show token.col - col = token.col - (col + 1) + 1 by omega, List.drop_succ_cons]
      exact chars
  | @token col c rest kind more tokens visible longest _ ih =>
      intro token mem
      rcases List.mem_cons.mp mem with rfl | mem
      · refine ⟨Nat.le_refl col, ?_, List.cons_ne_nil _ _, ?_⟩
        · rw [Nat.sub_self, List.drop_zero]
          exact (List.prefix_cons_inj c).mpr (List.take_prefix more rest)
        · have spelled := spells_tokenAt c rest
          rw [longest] at spelled
          exact spelled
      · obtain ⟨after, chars, nonempty, spelled⟩ := ih token mem
        refine ⟨by omega, ?_, nonempty, spelled⟩
        rw [List.drop_drop] at chars
        rw [show token.col - col = more + (token.col - (col + (more + 1))) + 1 by omega,
          List.drop_succ_cons]
        exact chars

/-- A token ends inside the text. -/
theorem Token.Stands.stop_le {token : Token} {col : Nat} {chars : List Char}
    (stands : token.Stands col chars) : token.stop ≤ col + chars.length := by
  have after := stands.after
  have length := stands.chars.length_le
  have nonempty := List.length_pos_iff.mpr stands.nonempty
  rw [List.length_drop] at length
  rw [Token.stop]
  omega

theorem mem_scan_of_mem_scanCode {line : Line} {token : Token} (mem : token ∈ scanCode line) :
    token ∈ scan line :=
  (List.takeWhile_sublist _).mem mem

/-- Every token of a line stands on it. -/
theorem stands_of_mem_scanCode {line : Line} {token : Token} (mem : token ∈ scanCode line) :
    token.Stands 0 line :=
  (cut_scan line).stands token (mem_scan_of_mem_scanCode mem)

/-! ## Code behind a brace -/

theorem codeTokens_cons_of_comment {token : Token} (comment : token.kind = .comment)
    (rest : List Token) : codeTokens (token :: rest) = [] := by
  simp [codeTokens, comment]

theorem codeTokens_cons_of_code {token : Token} (code : token.kind ≠ .comment)
    (rest : List Token) : codeTokens (token :: rest) = token :: codeTokens rest := by
  simp [codeTokens, code]

/-- Where a text begins has no influence on the kinds of its tokens. -/
theorem Cut.map_kind {col : Nat} {chars : List Char} {tokens : List Token}
    (cut : Cut col chars tokens) (col' : Nat) {tokens' : List Token}
    (cut' : Cut col' chars tokens') : tokens'.map Token.kind = tokens.map Token.kind := by
  induction cut generalizing col' tokens' with
  | done col =>
      cases cut'
      rfl
  | gap blank _ ih =>
      cases cut' with
      | gap _ behind' => exact ih _ behind'
      | token visible' _ _ => exact absurd (blank.symm.trans visible') Bool.noConfusion
  | token visible longest _ ih =>
      cases cut' with
      | gap blank' _ => exact absurd (blank'.symm.trans visible) Bool.noConfusion
      | token _ longest' behind' =>
          cases longest.symm.trans longest'
          rw [List.map_cons, List.map_cons, ih _ behind']

theorem map_kind_codeTokens (tokens : List Token) :
    (codeTokens tokens).map Token.kind =
      (tokens.map Token.kind).takeWhile fun kind => kind ≠ .comment := by
  rw [codeTokens, List.takeWhile_map]
  rfl

/-- The kinds of the code of a text are the same wherever the text begins. -/
theorem map_kind_code_scanOnto (col : Nat) (chars : List Char) :
    (codeTokens (scanOnto [] col chars)).map Token.kind = (scanCode chars).map Token.kind := by
  rw [scanCode, map_kind_codeTokens, map_kind_codeTokens,
    (cut_scan chars).map_kind col (cut_scanOnto col chars)]

/-- The tokens that end a block or open the other block of a choice. -/
def Token.IsDelimiter (token : Token) : Prop :=
  token.kind = .closeBrace ∨ token.kind = .keyword .otherwise ∨ token.kind = .openBrace

instance (token : Token) : Decidable token.IsDelimiter :=
  inferInstanceAs (Decidable (_ ∨ _))

/-- No brace stands in a delimiter behind its first character. -/
theorem Token.IsDelimiter.not_mem_tail {token : Token} (delimiter : token.IsDelimiter)
    (spelled : token.kind.Spells token.text) : '\x7d' ∉ token.text.tail := by
  rcases delimiter with kind | kind | kind
  · rw [kind] at spelled
    rw [show token.text = ['\x7d'] from spelled]
    decide
  · rw [kind] at spelled
    rw [show token.text = Keyword.otherwise.spelling.toList from spelled]
    decide
  · rw [kind] at spelled
    rw [show token.text = ['\x7b'] from spelled]
    decide

/-- A closing brace in column `brace` of a text is a token of its own, and the code behind it is
that of the text behind it, unless an earlier token of the code covers it. -/
theorem Cut.code_behind {col : Nat} {chars : List Char} {tokens : List Token}
    (cut : Cut col chars tokens) {brace : Nat} (le : col ≤ brace)
    (here : chars[brace - col]? = some '\x7d') {token : Token} (mem : token ∈ codeTokens tokens)
    (behind : brace ≤ token.col) :
    (∃ front ∈ codeTokens tokens, front.col < brace ∧ ¬ front.IsDelimiter) ∨
      token = ⟨.closeBrace, ['\x7d'], brace⟩ ∨
      token ∈ codeTokens (scanOnto [] (brace + 1) (chars.drop (brace + 1 - col))) := by
  induction cut with
  | done col => cases mem
  | @gap col c rest tokens blank _ ih =>
      have apart : col ≠ brace := by
        intro same
        rw [same, Nat.sub_self, List.getElem?_cons_zero, Option.some.injEq] at here
        rw [here] at blank
        cases blank
      rw [show brace - col = brace - (col + 1) + 1 by omega, List.getElem?_cons_succ] at here
      rw [show brace + 1 - col = brace + 1 - (col + 1) + 1 by omega, List.drop_succ_cons]
      exact ih (by omega) here mem
  | @token col c rest kind more tokens visible longest cut ih =>
      by_cases comment : kind = .comment
      · rw [codeTokens_cons_of_comment comment] at mem
        cases mem
      rw [codeTokens_cons_of_code comment] at mem ⊢
      rcases Nat.lt_or_ge (col + more) brace with before | upto
      · -- The brace lies behind the first token, and so does `token`.
        rcases List.mem_cons.mp mem with rfl | mem
        · change brace ≤ col at behind
          omega
        rw [show brace - col = more + (brace - (col + (more + 1))) + 1 by omega,
          List.getElem?_cons_succ, ← List.getElem?_drop] at here
        rw [show brace + 1 - col = more + (brace + 1 - (col + (more + 1))) + 1 by omega,
          List.drop_succ_cons, ← List.drop_drop]
        rcases ih (by omega) here mem with ⟨front, inFront, earlier, other⟩ | found
        · exact .inl ⟨front, List.mem_cons_of_mem _ inFront, earlier, other⟩
        · exact .inr found
      rcases Nat.eq_or_lt_of_le le with rfl | covered
      · -- The first token is the brace.
        rw [Nat.sub_self, List.getElem?_cons_zero, Option.some.injEq] at here
        subst here
        obtain ⟨rfl, rfl⟩ : kind = .closeBrace ∧ more = 0 := Prod.mk.inj longest.symm
        rcases List.mem_cons.mp mem with rfl | mem
        · exact .inr (.inl rfl)
        · refine .inr (.inr ?_)
          rw [show col + 1 - col = 0 + 1 by omega, List.drop_succ_cons, ← cut.eq_scanOnto]
          exact mem
      · -- The first token covers the brace.
        refine .inl ⟨_, List.mem_cons_self, covered, fun delimiter => ?_⟩
        have spelled := spells_tokenAt c rest
        rw [longest] at spelled
        refine delimiter.not_mem_tail spelled ?_
        rw [show brace - col = brace - col - 1 + 1 by omega, List.getElem?_cons_succ] at here
        have inside : (rest.take more)[brace - col - 1]? = some '\x7d' := by
          rw [List.getElem?_take_of_lt (by omega)]
          exact here
        exact List.mem_of_getElem? inside

end LineScript
