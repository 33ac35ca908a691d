import LineScript.Run
import LineScript.Proofs.Capture
import LineScript.Proofs.Entry
import LineScript.Proofs.FaultOrigin
import LineScript.Proofs.TokenPlace

/-!
# Where faults point

A fault carries a position, and every position is one of the source: a line of it and a column of
that line, the column behind its last character included. What is written there is what the fault
is about. `Source.Shows` says for each cause what that is, and `Source.Marks` that a fault points
at it.

Positions are formed in three stages. The braces and the header of `main` are reported where they
stand. The statements of a block are followed along `Layout.Reads`: each is added by one line, and
what it refers to are tokens of that line. A run fails with a fault that one of its statements
raises. `run_fault_marks` puts the stages together, for sources whose lines and columns can be
counted in 32 bits.
-/

namespace LineScript

/-- A token of the code of a line begins in a column, and its characters stand there. -/
structure Spelled (text : Line) (col : Nat) (kind : TokenKind) (word : List Char) : Prop where
  token : ⟨kind, word, col⟩ ∈ scanCode text
  chars : word <+: text.drop col

theorem spelled_of_mem {text : Line} {token : Token} (mem : token ∈ scanCode text) :
    Spelled text token.col token.kind token.text :=
  ⟨mem, (stands_of_mem_scanCode mem).chars⟩

theorem Spelled.col_le {text : Line} {col : Nat} {kind : TokenKind} {word : List Char}
    (spelled : Spelled text col kind word) : col ≤ text.length := by
  have stop := (stands_of_mem_scanCode spelled.token).stop_le
  rw [Token.stop, Nat.zero_add] at stop
  exact Nat.le_trans (Nat.le_add_right _ _) stop

theorem length_trimEnd_le (text : List Char) : (trimEnd text).length ≤ text.length := by
  have shorter := (List.dropWhile_sublist (l := text.reverse) isBlank).length_le
  rw [List.length_reverse] at shorter
  rw [trimEnd, List.length_reverse]
  exact shorter

namespace Source

/-- What is written in a column of a line, where a fault with the given cause points at it. -/
def Shows (source : Source) (line col : Nat) : Cause → Prop
  | .undeclared name => Spelled (source.line line) col .name name.toList
  | .literalTooLarge digits => Spelled (source.line line) col .integer digits.toList
  | .sumOutOfRange _ _ => ∃ dest lhs rhs,
      Form.ofLine line (source.line line) = .action (.assign dest lhs rhs) ∧
        dest.pos = .clamped line col ∧ Spelled (source.line line) col .name dest.name.toList
  | .functionRefused _ => Spelled (source.line line) col (.keyword .function) "func".toList
  | .strayClose => ['\x7d'] <+: (source.line line).drop col
  | .mainOpen => Spelled (source.line line) col .openBrace ['\x7b']
  | .unterminated => col = (trimEnd (source.line line)).length
  | .missingClose | .mainMissing | .unknownForm _ | .stepLimit _ | .timeLimit _ => True

/-- A fault points into the source, at what it is about. -/
structure Points (source : Source) (line col : Nat) (fault : Fault) : Prop where
  pos : fault.pos = .clamped line col
  inside : line < source.size
  onLine : col ≤ (source.line line).length
  shows : source.Shows line col fault.cause

/-- A fault points somewhere into the source, at what it is about. -/
def Marks (source : Source) (fault : Fault) : Prop :=
  ∃ line col, source.Points line col fault

variable {source : Source} {line limit : Nat} {fault : Fault}

/-! ## Braces and the header -/

theorem line_last_lt (source : Source) : source.size - 1 < source.size :=
  Nat.sub_lt source.size_pos Nat.one_pos

/-- The first fault of the braces points at the brace, or at the end of the source. -/
theorem marks_braceFault (found : (Layout.ofSource source).braceFault? = some fault) :
    source.Marks fault := by
  change source.pairing.fault? source.stop = some fault at found
  rw [Pairing.fault?] at found
  split at found
  · next stray rest strays =>
    cases found
    have waits : stray ∈ source.waiting 0 := by
      rw [← strays_pairing, strays]
      exact List.mem_cons_self
    have brace := brace_of_mem_waiting waits
    obtain ⟨inside, -⟩ := List.getElem?_eq_some_iff.mp brace
    refine ⟨stray.line, stray.col, rfl, (le_line_of_mem_waiting waits).2, Nat.le_of_lt inside, ?_⟩
    show ['\x7d'] <+: (source.line stray.line).drop stray.col
    rw [List.drop_eq_getElem_cons inside, (List.getElem?_eq_some_iff.mp brace).2]
    exact (List.prefix_cons_inj _).mpr List.nil_prefix
  · split at found
    · cases found
      exact ⟨source.size - 1, source.last.length, rfl, source.line_last_lt, Nat.le_refl _, trivial⟩
    · cases found

/-- The fault for which the lines to run are not found points at the header of `main`, or at the
start of a source without one. -/
theorem marks_region {rule : EntryRule}
    (refused : (Layout.ofSource source).region rule = .error fault) : source.Marks fault := by
  unfold Layout.region at refused
  split at refused
  · cases rule with
    | wholeSource => cases refused
    | mainRequired =>
        cases refused
        exact ⟨0, 0, rfl, source.size_pos, Nat.zero_le _, trivial⟩
  · next line col header =>
    split at refused
    · cases refused
    · cases refused
      obtain ⟨inside, brace, -⟩ := mainHeader?_eq_some_iff.mp header
      obtain ⟨token, mem, kind, rfl⟩ := mainBrace?_eq_some brace
      have spelled := spelled_of_mem mem
      have text := (stands_of_mem_scanCode mem).spelled
      rw [kind] at spelled text
      rw [show token.text = ['\x7b'] from text] at spelled
      exact ⟨line, token.col, rfl, inside, spelled.col_le, spelled⟩

/-! ## Statements -/

/-- A fault of the form of a line points at what it is about. -/
theorem marks_lineFault (inside : line < source.size)
    (drawn : LineFault line (source.line line) (scanCode (source.line line)) fault) :
    source.Marks fault := by
  cases drawn with
  | @literal token mem kind =>
      have spelled := spelled_of_mem mem
      rw [kind] at spelled
      refine ⟨line, token.col, rfl, inside, spelled.col_le, ?_⟩
      show Spelled _ _ _ token.word.toList
      rw [Token.word, String.toList_ofList]
      exact spelled
  | @function token name mem kind =>
      have spelled := spelled_of_mem mem
      have text := (stands_of_mem_scanCode mem).spelled
      rw [kind] at spelled text
      rw [show token.text = "func".toList from text] at spelled
      exact ⟨line, token.col, rfl, inside, spelled.col_le, spelled⟩
  | unknown => exact ⟨line, 0, rfl, inside, Nat.zero_le _, trivial⟩
  | unterminated =>
      exact ⟨line, _, rfl, inside, length_trimEnd_le _, rfl⟩

/-- The statements that the line `line` may have: the fault that one carries marks the source, and
what it refers to are tokens of the line. -/
structure Rooted (source : Source) (line : Nat) (stmt : Stmt) : Prop where
  pos : stmt.pos = .clamped line 0
  fault : ∀ {row fault}, stmt = .action row (.invalid fault) → source.Marks fault
  refs : ∀ ref ∈ stmt.refs, ∃ token ∈ scanCode (source.line line),
    token.kind = .name ∧ ref = token.varRef line
  sum : ∀ {row dest lhs rhs}, stmt = .action row (.assign dest lhs rhs) →
    Form.ofLine line (source.line line) = .action (.assign dest lhs rhs)

theorem spelled_varRef {token : Token} (mem : token ∈ scanCode (source.line line))
    (kind : token.kind = .name) :
    Spelled (source.line line) token.col .name (token.varRef line).name.toList := by
  rw [Token.varRef, Token.word, String.toList_ofList, ← kind]
  exact spelled_of_mem mem

/-- Whatever a statement raises points at what it is about. -/
theorem Rooted.marks {stmt : Stmt} (rooted : source.Rooted line stmt) (inside : line < source.size)
    (raised : stmt.Raises fault) : source.Marks fault := by
  cases raised with
  | invalid => exact rooted.fault rfl
  | undeclared mem =>
      obtain ⟨token, inCode, kind, rfl⟩ := rooted.refs _ mem
      have spelled := spelled_varRef inCode kind
      exact ⟨line, token.col, rfl, inside, spelled.col_le, spelled⟩
  | @overflow row dest lhs rhs left right =>
      obtain ⟨token, inCode, kind, same⟩ := rooted.refs dest List.mem_cons_self
      have spelled := spelled_varRef inCode kind
      have form := rooted.sum rfl
      refine ⟨line, token.col, ?_, inside, spelled.col_le, dest, lhs, rhs, form, ?_, ?_⟩
      · show dest.pos = _
        rw [same]
        rfl
      · rw [same]
        rfl
      · rw [same]
        exact spelled
  | @budget _ cause code =>
      refine ⟨line, 0, rooted.pos, inside, Nat.zero_le _, ?_⟩
      cases cause <;> trivial

variable {row : UInt32} {action : Action}

/-- A statement of one line that only carries a fault is rooted where it stands. -/
theorem rooted_invalid (marks : source.Marks fault) :
    source.Rooted line (.onLine line (.invalid fault)) where
  pos := rfl
  fault same := by
    cases same
    exact marks
  refs ref mem := by cases mem
  sum same := by cases same

/-- A statement with blocks is rooted on the line of its opener. -/
theorem rooted_opener {opener : Opener} {stmt : Stmt}
    (form : Form.ofLine line (source.line line) = .opener opener)
    (pos : stmt.pos = .clamped line 0) (owner : ∀ row action, stmt ≠ .action row action)
    (refs : stmt.refs = opener.refs) : source.Rooted line stmt where
  pos := pos
  fault same := absurd same (owner _ _)
  refs ref mem := by
    have drawn := (Form.ofLine_drawn line (source.line line)).refs
    rw [form] at drawn
    rw [refs] at mem
    exact drawn ref mem
  sum same := absurd same (owner _ _)

theorem rooted_action (inside : line < source.size)
    (form : Form.ofLine line (source.line line) = .action action) :
    source.Rooted line (.onLine line action) where
  pos := rfl
  fault same := by
    cases same
    exact marks_lineFault inside ((Form.ofLine_drawn _ _).fault _ (by rw [form]; rfl))
  refs ref mem := by
    have drawn := (Form.ofLine_drawn line (source.line line)).refs
    rw [form] at drawn
    exact drawn ref mem
  sum same := by
    cases same
    exact form

theorem marks_refused (inside : line < source.size)
    (form : Form.ofLine line (source.line line) = .opener (.refused fault)) :
    source.Marks fault :=
  marks_lineFault inside ((Form.ofLine_drawn _ _).fault _ (by rw [form]; rfl))

/-- An opener whose block does not end is reported at the end of its line. -/
theorem rooted_unclosed {opener : Opener} (inside : line < source.size)
    (form : Form.ofLine line (source.line line) = .opener opener) :
    source.Rooted line ((Layout.ofSource source).unclosed line limit opener).1 := by
  have missing : source.Marks ⟨.missingClose, .clamped line ((source.line line).length - 1)⟩ :=
    ⟨line, _, rfl, inside, Nat.sub_le _ _, trivial⟩
  cases opener with
  | refused fault => exact rooted_invalid (marks_refused inside form)
  | loop guard bound => exact rooted_invalid missing
  | branch test => exact rooted_invalid missing

theorem rooted_captured {opener : Opener} {close : Spot} (inside : line < source.size)
    (form : Form.ofLine line (source.line line) = .opener opener) :
    source.Rooted line ((Layout.ofSource source).captured line limit close opener).1 := by
  cases opener with
  | refused fault => exact rooted_invalid (marks_refused inside form)
  | loop guard bound => exact rooted_opener form rfl (fun _ _ => Stmt.noConfusion) rfl
  | branch test =>
      dsimp only [Layout.captured]
      split
      · exact rooted_opener form rfl (fun _ _ => Stmt.noConfusion) rfl
      · exact rooted_opener form rfl (fun _ _ => Stmt.noConfusion) rfl

/-- Code behind the brace that ends a block is reported where it begins. -/
theorem rooted_afterBlock {close : Spot} {stmt : Stmt} (inside : close.line < source.size)
    (extra : ((Layout.ofSource source).afterBlock close limit).1 = some stmt) :
    source.Rooted close.line stmt := by
  unfold Layout.afterBlock at extra
  dsimp only at extra
  split at extra
  · cases extra
  · next first rest code =>
    cases extra
    refine rooted_invalid ⟨close.line, close.col + 1 + first.col, rfl, inside, ?_, trivial⟩
    have mem : first ∈ scanCode (source.textAfter close) := by
      show first ∈ scanCode ((Layout.ofSource source).source.textAfter close)
      rw [code]
      exact List.mem_cons_self
    have stands := stands_of_mem_scanCode mem
    have stop := stands.stop_le
    have nonempty := List.length_pos_iff.mpr stands.nonempty
    rw [Token.stop, Nat.zero_add, textAfter, List.length_drop] at stop
    omega

/-- Whatever a line adds to a block is rooted in the source. -/
theorem rooted_readLine {stmt : Stmt} (inside : line < limit) (within : limit ≤ source.size)
    (mem : stmt ∈ ((Layout.ofSource source).readLine line limit).1) :
    ∃ row < source.size, source.Rooted row stmt := by
  have here : line < source.size := Nat.lt_of_lt_of_le inside within
  cases form : Form.ofLine line ((Layout.ofSource source).text line) with
  | action action =>
      rw [Layout.readLine_action form] at mem
      cases List.mem_singleton.mp mem
      exact ⟨line, here, rooted_action here form⟩
  | opener opener =>
      cases found : (Layout.ofSource source).blockEnd? line limit with
      | none =>
          rw [Layout.readLine_unclosed form found] at mem
          cases List.mem_singleton.mp mem
          exact ⟨line, here, rooted_unclosed here form⟩
      | some close =>
          rw [Layout.readLine_captured form found] at mem
          rcases List.mem_cons.mp mem with rfl | behind
          · exact ⟨line, here, rooted_captured here form⟩
          · have ends := Layout.captured_line opener found
            have last := Nat.lt_of_lt_of_le ends.2 within
            exact ⟨_, last, rooted_afterBlock last (Option.mem_toList.mp behind)⟩

/-- Whatever the statements of a range of lines raise points into the source. -/
theorem marks_of_raises {first stop : Nat} {stmt : Stmt} (within : stop ≤ source.size)
    (mem : Stmt.Within stmt ((Layout.ofSource source).block first stop))
    (raised : stmt.Raises fault) : source.Marks fault := by
  obtain ⟨line, limit, reads, added⟩ := Layout.within_block.mp mem
  have upto := Nat.le_trans reads.bounds.2 within
  obtain ⟨row, inside, rooted⟩ := rooted_readLine reads.lt.1 upto added
  exact rooted.marks inside raised

/-! ## Runs -/

/-- A run that fails points into its source. -/
theorem marks_run {config : Config} {clock : Clock}
    (failed : source.run config clock = .fault fault) : source.Marks fault := by
  cases read : Program.ofSource config.entry source with
  | error reason =>
      rw [run_of_refused read] at failed
      cases failed
      rcases Program.ofSource_eq_error read with broken | ⟨-, refused⟩
      · exact marks_braceFault broken
      · exact marks_region refused
  | ok program =>
      obtain ⟨-, found, same⟩ := Program.ofSource_eq_ok read
      simp only [run, read] at failed
      unfold Outcome.ofEnd at failed
      split at failed
      · cases failed
      · next reason stopped =>
        cases failed
        obtain ⟨stmt, mem, raised⟩ := Machine.runBlock_origin (Prod.ext rfl stopped)
        rw [same] at mem
        exact marks_of_raises (endsAt_region found).le_size mem raised

end Source

/-- A run that fails points at a line of its source and at a column of that line, where what the
fault is about is written, as long as lines and columns can be counted in 32 bits. -/
theorem run_fault_in_source (config : Config) (clock : Clock) (text : String) (fault : Fault)
    (rows : (Source.ofText text).size < UInt32.size)
    (columns : ∀ line ∈ (Source.ofText text).lines, line.length < UInt32.size)
    (failed : run config clock text = .fault fault) :
    fault.pos.line.toNat < (Source.ofText text).size ∧
      fault.pos.col.toNat ≤ ((Source.ofText text).line fault.pos.line.toNat).length ∧
      (Source.ofText text).Shows fault.pos.line.toNat fault.pos.col.toNat fault.cause := by
  obtain ⟨line, col, points⟩ := Source.marks_run failed
  have inside := points.inside
  have onLine := points.onLine
  have narrow : ((Source.ofText text).line line).length < UInt32.size := by
    refine columns _ ?_
    rw [Source.line, Source.line?, Array.getElem?_eq_getElem inside]
    exact Array.getElem_mem inside
  have here : fault.pos.line.toNat = line := by
    rw [points.pos]
    exact Pos.clamped_line col (Nat.lt_trans inside rows)
  have there : fault.pos.col.toNat = col := by
    rw [points.pos]
    exact Pos.clamped_col line (Nat.lt_of_le_of_lt onLine narrow)
  rw [here, there]
  exact ⟨inside, onLine, points.shows⟩

/-- A variable without a value behind characters of several bytes, on lines that end in a carriage
return. -/
theorem run_fault_in_source_undeclared :
    let text := "print \"é\";\r\nprint \"é→\" + total;\r\n"
    let fault : Fault := ⟨.undeclared "total", ⟨1, 13⟩⟩
    (Source.ofText text).size < UInt32.size ∧
      (∀ line ∈ (Source.ofText text).lines, line.length < UInt32.size) ∧
      run .standard .still text = .fault fault ∧
      fault.pos.line.toNat < (Source.ofText text).size ∧
      fault.pos.col.toNat ≤ ((Source.ofText text).line fault.pos.line.toNat).length ∧
      (Source.ofText text).Shows fault.pos.line.toNat fault.pos.col.toNat fault.cause := by
  intro text fault
  have rows : (Source.ofText text).size < UInt32.size := by decide +kernel
  have columns : ∀ line ∈ (Source.ofText text).lines, line.length < UInt32.size := by
    decide +kernel
  have failed : run .standard .still text = .fault fault := by decide +kernel
  exact ⟨rows, columns, failed,
    run_fault_in_source .standard .still text fault rows columns failed⟩

end LineScript
