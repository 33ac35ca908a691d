import LineScript.Proofs.Annotation
import LineScript.Proofs.Capture
import LineScript.Proofs.LongestMatch
import LineScript.Proofs.PrintedText

/-!
# Openers whose block does not end

An opener of a known form whose block does not end within the lines that are read is refused. The
fault belongs to its brace, the last one among the tokens of the line, but it is reported at the
last character of the line. The two are the same place only if nothing stands behind the brace:
`refused_at_end` says so, and a comment behind the brace moves the report away from it.

The brace is the last token of the code, because every known form ends in one. Behind the code
there is at most a comment, which runs to the end of the line: this is where it matters that no line
of a text contains a newline.
-/

namespace LineScript

/-- The last opening brace among the tokens of a line. -/
def lastBrace? (text : Line) : Option Token :=
  ((scan text).filter fun token => token.kind = .openBrace).getLast?

/-! ## Lines of a text -/

theorem Source.newline_not_mem_line (text : String) (index : Nat) :
    '\n' ∉ (ofText text).line index := by
  by_cases inside : index < (ofText text).size
  · have mem := line_mem inside
    rw [← Array.mem_toList_iff] at mem
    obtain ⟨piece, there, same⟩ := List.mem_map.mp mem
    rw [← same]
    exact fun newline => not_mem_cutAt '\n' _ piece there (mem_of_mem_dropReturn newline)
  · rw [line_of_size_le (Nat.le_of_not_lt inside)]
    exact List.not_mem_nil

/-! ## The last brace -/

/-- A comment takes the rest of its line. -/
theorem drop_eq_nil_of_comment {c : Char} {rest : List Char} {more : Nat}
    (comment : tokenAt c rest = (.comment, more)) (oneLine : '\n' ∉ c :: rest) :
    rest.drop more = [] := by
  have taken := taken_tokenAt c rest 0
  rw [comment] at taken
  have longest := taken.longest TokenKind.noConfusion
  obtain ⟨inside, begins, -⟩ := longest.matched
  -- The whole rest of the line is a comment as well, so the longest one is not shorter.
  have begins : c :: rest.take more = '/' :: '/' :: inside := begins
  have whole : c :: rest = '/' :: '/' :: (inside ++ rest.drop more) :=
    calc c :: rest = c :: rest.take more ++ rest.drop more := by simp
      _ = '/' :: '/' :: (inside ++ rest.drop more) := by rw [begins]; rfl
  have all : TokenKind.comment.Matches (c :: rest) := by
    refine ⟨inside ++ rest.drop more, whole, fun d mem newline => oneLine ?_⟩
    rw [whole, ← newline]
    exact List.mem_cons_of_mem _ (List.mem_cons_of_mem _ mem)
  have bound := longest.longest .comment _ all List.prefix_rfl
  simp only [List.length_cons, List.length_take] at bound
  exact List.drop_eq_nil_of_le (by omega)

/-- Behind the code of a line there are only comments. -/
theorem Cut.exists_remark {col : Nat} {chars : List Char} {tokens : List Token}
    (cut : Cut col chars tokens) (oneLine : '\n' ∉ chars) :
    ∃ remark, tokens = codeTokens tokens ++ remark ∧
      ∀ token ∈ remark, token.kind = .comment := by
  induction cut with
  | done col => exact ⟨[], rfl, fun _ mem => absurd mem List.not_mem_nil⟩
  | gap blank _ ih => exact ih (List.not_mem_of_not_mem_cons oneLine)
  | @token col c rest kind more tokens visible longest behind ih =>
      by_cases comment : kind = .comment
      · subst comment
        rw [drop_eq_nil_of_comment longest oneLine] at behind
        cases behind
        rw [codeTokens_cons_of_comment rfl]
        exact ⟨_, rfl, fun token mem => by rw [List.mem_singleton.mp mem]⟩
      · obtain ⟨remark, same, comments⟩ := ih fun mem =>
          oneLine (List.mem_cons_of_mem c (List.mem_of_mem_drop mem))
        refine ⟨remark, ?_, comments⟩
        rw [codeTokens_cons_of_code comment, List.cons_append]
        exact congrArg _ same

/-- If the code of a line ends in an opening brace, this is the last one of the line. -/
theorem lastBrace?_of_code {text : Line} {front : List Token} {brace : Token}
    (oneLine : '\n' ∉ text) (code : scanCode text = front ++ [brace])
    (kind : brace.kind = .openBrace) : lastBrace? text = some brace := by
  obtain ⟨remark, tokens, comments⟩ := (cut_scan text).exists_remark oneLine
  have unseen : remark.filter (fun token => token.kind = .openBrace) = [] := by
    rw [List.filter_eq_nil_iff]
    intro token mem
    rw [comments token mem]
    decide
  rw [lastBrace?, tokens, show codeTokens (scan text) = front ++ [brace] from code]
  simp [unseen, kind]

namespace Form

theorem ofAction_ne_opener (result : Except Fault Action) (opener : Opener) :
    ofAction result ≠ .opener opener := by
  cases result <;> exact Form.noConfusion

/-- The code of an opener of a known form ends in a brace. -/
theorem exists_brace {index : Nat} {text : Line} {opener : Opener}
    (form : ofLine index text = .opener opener) (known : opener.known) :
    ∃ front brace, scanCode text = front ++ [brace] ∧ brace.kind = .openBrace := by
  have statement : (Form.opener opener).isStatement = true := by
    cases opener with
    | refused fault => cases known
    | _ => rfl
  have recognised := recognised_of_ofLine (form ▸ statement)
  rw [form] at recognised
  generalize scanCode text = tokens at recognised
  generalize made : Form.opener opener = made at recognised
  cases recognised with
  | printText => cases made
  | printValue => exact absurd made.symm (ofAction_ne_opener _ _)
  | declare => exact absurd made.symm (ofAction_ne_opener _ _)
  | assign => exact absurd made.symm (ofAction_ne_opener _ _)
  | @loop word guard less bound brace _ _ _ _ ended =>
      exact ⟨[word, guard, less, bound], brace, rfl, ended⟩
  | @branch word guard sign literal brace op _ _ _ _ ended =>
      exact ⟨[word, guard, sign, literal], brace, rfl, ended⟩

end Form

/-! ## The place of the report -/

theorem Pos.clamped_eq_iff {index col col' : Nat} :
    clamped index col = clamped index col' ↔
      col = col' ∨ UInt32.size ≤ col + 1 ∧ UInt32.size ≤ col' + 1 := by
  have value (col : Nat) : (clamped index col).col.toNat = min col (UInt32.size - 1) := by
    by_cases small : col < UInt32.size
    · rw [clamped_col index small]
      omega
    · simp only [clamped, UInt32.ofNatClamp, dif_neg small, UInt32.toNat_ofNatLT]
      omega
  constructor
  · intro same
    have cols := congrArg (fun pos => pos.col.toNat) same
    simp only [value] at cols
    omega
  · intro close
    have cols : (clamped index col).col = (clamped index col').col := by
      apply UInt32.toNat_inj.mp
      rw [value, value]
      omega
    exact congrArg (Pos.mk _) cols

/-- An opener on a line is refused because its block does not end: what is reported, and when this
is at the brace that opens the block. -/
structure RefusedAtEnd (text : Line) (index : Nat) (brace : Token) (stmt : Stmt) : Prop where
  opens : ∃ opener, Form.ofLine index text = .opener opener ∧ opener.known
  last : lastBrace? text = some brace
  reported : stmt = .onLine index (.invalid ⟨.missingClose, .clamped index (text.length - 1)⟩)
  /-- The report is at the brace if nothing stands behind it, or the line is too long for
  columns. -/
  atBrace : Pos.clamped index (text.length - 1) = brace.pos index ↔
    brace.stop = text.length ∨ UInt32.size ≤ brace.stop

theorem refusedAtEnd_of_opener {text : Line} {index : Nat} {opener : Opener}
    (oneLine : '\n' ∉ text) (form : Form.ofLine index text = .opener opener)
    (known : opener.known) :
    ∃ brace, RefusedAtEnd text index brace
      (.onLine index (.invalid ⟨.missingClose, .clamped index (text.length - 1)⟩)) := by
  obtain ⟨front, brace, code, kind⟩ := Form.exists_brace form known
  refine ⟨brace, ⟨opener, form, known⟩, lastBrace?_of_code oneLine code kind, rfl, ?_⟩
  have mem : brace ∈ scanCode text := by
    rw [code]
    exact List.mem_append_right front List.mem_cons_self
  have stands := stands_of_mem_scanCode mem
  have spelled : brace.text = ['\x7b'] := by
    have spelled := stands.spelled
    rw [kind] at spelled
    exact spelled
  have stop : brace.stop = brace.col + 1 := by rw [Token.stop, spelled]; rfl
  have inside := stands.stop_le
  rw [Token.pos, Pos.clamped_eq_iff]
  omega

namespace Source

/-- Every statement of a range of lines, at any depth, that is refused for its braces is an opener
of these lines. It is reported at the last character of its line, which is its brace only if the
line ends there. -/
theorem refused_at_end (text : String) {first stop : Nat} {stmt : Stmt}
    (within : Stmt.Within stmt ((ofText text).block first stop)) (refused : stmt.unbalanced) :
    ∃ index brace, first ≤ index ∧ index < stop ∧
      RefusedAtEnd ((ofText text).line index) index brace stmt := by
  obtain ⟨index, limit, reads, mem⟩ := Layout.within_block.mp within
  obtain ⟨opener, form, known, -, rfl⟩ := Layout.unclosed_of_unbalanced mem refused
  obtain ⟨brace, atEnd⟩ :=
    refusedAtEnd_of_opener (newline_not_mem_line text index) form known
  have := reads.bounds
  exact ⟨index, brace, this.1, Nat.lt_of_lt_of_le reads.lt.1 this.2, atEnd⟩

/-- A loop with a comment behind its brace. -/
def remarked : String :=
  "while i < 3 \x7b // up\n\x7d"

/-- If its block does not end, the loop is reported at the end of the comment. -/
theorem within_remarked :
    Stmt.Within (.onLine 0 (.invalid ⟨.missingClose, ⟨0, 18⟩⟩)) ((ofText remarked).block 0 1) := by
  have form : Form.ofLine 0 ((ofText remarked).line 0) = .opener (.loop ⟨"i", ⟨0, 6⟩⟩ 3) := by
    decide +kernel
  have missing : (Layout.ofSource (ofText remarked)).blockEnd? 0 1 = none := by decide +kernel
  refine Layout.within_block.mpr ⟨0, 1, .here Nat.zero_lt_one, ?_⟩
  rw [Layout.readLine_unclosed form missing]
  exact List.mem_singleton.mpr rfl

theorem refused_at_end_remarked :
    ∃ index brace, 0 ≤ index ∧ index < 1 ∧
      RefusedAtEnd ((ofText remarked).line index) index brace
        (.onLine 0 (.invalid ⟨.missingClose, ⟨0, 18⟩⟩)) :=
  refused_at_end remarked within_remarked (by decide)

/-- An opener that is refused because its block does not end need not be reported at its brace: the
one of `remarked` stands in column 12. -/
theorem not_refused_at_brace :
    ¬ ∀ (text : String) (first stop : Nat) (stmt : Stmt),
      Stmt.Within stmt ((ofText text).block first stop) → stmt.unbalanced →
        ∃ index brace, first ≤ index ∧ index < stop ∧
          lastBrace? ((ofText text).line index) = some brace ∧
          stmt = .onLine index (.invalid ⟨.missingClose, brace.pos index⟩) := by
  intro atBrace
  obtain ⟨index, brace, -, inside, last, same⟩ :=
    atBrace remarked 0 1 _ within_remarked (by decide)
  obtain rfl : index = 0 := Nat.lt_one_iff.mp inside
  have found : lastBrace? ((ofText remarked).line 0) = some ⟨.openBrace, ['\x7b'], 12⟩ := by
    decide +kernel
  obtain rfl := Option.some.inj (last.symm.trans found)
  cases same

end Source

end LineScript
