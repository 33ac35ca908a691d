import LineScript.Proofs.Entry
import LineScript.Proofs.Grammar
import LineScript.Proofs.Passage
import LineScript.Proofs.Reading
import LineScript.Proofs.Serving

/-!
# Printed lines stand on one line

A quotation ends at the next quote, and on the line on which it begins. So the text of a statement
that prints contains no quote and no line end. `Quotable` says this of a text. A value is written
with digits and perhaps a sign, so a whole printed line is quotable as well, whatever the program
does before it prints it.

Statements are made of lines in one place, `Layout.readLine`. Of what it makes, only the form of a
line prints: the rest carries a fault or owns a block. Nothing is assumed about the source.
-/

namespace LineScript

/-- The text can stand between two quotes: it contains no quote and no line end. -/
def Quotable (text : String) : Prop :=
  ∀ c ∈ text.toList, c ≠ '"' ∧ c ≠ '\n'

instance (text : String) : Decidable (Quotable text) :=
  List.decidableBAll _ text.toList

theorem Quotable.append {front back : String} (first : Quotable front) (second : Quotable back) :
    Quotable (front ++ back) := by
  intro c mem
  rw [String.toList_append] at mem
  rcases List.mem_append.mp mem with mem | mem
  · exact first c mem
  · exact second c mem

theorem Quotable.newline_not_mem {text : String} (quotable : Quotable text) :
    '\n' ∉ text.toList :=
  fun mem => (quotable '\n' mem).2 rfl

theorem Quotation.quotable (text : Quotation) : Quotable (String.ofList text.chars) := by
  intro c mem
  rw [String.toList_ofList] at mem
  exact text.plain c mem

theorem quotable_nat (number : Nat) : Quotable (toString number) := by
  intro c mem
  have digit := isDigit_of_mem_number (toList_number number ▸ mem)
  constructor
  · rintro rfl
    cases digit
  · rintro rfl
    cases digit

/-- An integer is written with digits, behind a sign if it is negative. -/
theorem quotable_int (number : Int) : Quotable (toString number) := by
  cases number with
  | ofNat number => exact quotable_nat number
  | negSucc number => exact .append (by decide) (quotable_nat (number + 1))

/-! ## Texts of statements -/

/-- The text that a statement of one line prints, without the value behind it. -/
def Action.printed? : Action → Option String
  | .printText text | .printValue text _ => some text
  | .blank | .comment | .declare _ _ | .assign _ _ _ | .invalid _ => none

namespace Form

variable {index : Nat} {line : Line} {action : Action} {text : String}

/-- A line that is a statement was recognised by its code. -/
theorem recognised_of_ofLine (statement : (ofLine index line).isStatement = true) :
    Recognised index (scanCode line) (ofLine index line) := by
  have code : scanCode line ≠ [] := by
    intro quiet
    rcases ofLine_of_quiet quiet index with blank | comment
    · rw [blank] at statement
      cases statement
    · rw [comment] at statement
      cases statement
  rw [ofLine_of_code code] at statement ⊢
  exact recognised_of_isStatement statement

/-- A quotation in the code of a line is quotable. -/
theorem quotable_contents {token : Token} (mem : token ∈ scanCode line)
    (quoted : token.kind = .quoted) : Quotable (String.ofList token.contents) := by
  have known : token.kind ≠ .stray := quoted ▸ TokenKind.noConfusion
  obtain ⟨quotation, word⟩ := (isWord_of_mem_scanCode mem known).exists_quotation quoted
  rw [quotation.contents_eq word]
  exact quotation.quotable

/-- The text that a form prints is a quotation on its line. -/
theorem quotable_of_ofLine (form : ofLine index line = .action action)
    (prints : action.printed? = some text) : Quotable text := by
  have statement : (Form.action action).isStatement = true := by
    cases action with
    | printText text => rfl
    | printValue text value => rfl
    | _ => cases prints
  have recognised := recognised_of_ofLine (form ▸ statement)
  rw [form] at recognised
  generalize scanned : scanCode line = tokens at recognised
  generalize made : Form.action action = made at recognised
  -- Only the first two forms print. The heads of blocks are no statements of one line at all.
  cases recognised with
  | printText start quoted ended =>
      cases made
      cases prints
      exact quotable_contents (scanned ▸ List.mem_cons_of_mem _ List.mem_cons_self) quoted
  | printValue start quoted sum term ended =>
      obtain ⟨value, -, same⟩ := (ofAction_map_iff statement).mp made.symm
      cases same
      cases prints
      exact quotable_contents (scanned ▸ List.mem_cons_of_mem _ List.mem_cons_self) quoted
  | declare start named equal term ended =>
      obtain ⟨value, -, same⟩ := (ofAction_map_iff statement).mp made.symm
      cases same
      cases prints
  | assign named equal left sum right ended =>
      obtain ⟨lhs, -, rhs, -, same⟩ := (ofAction_bind_iff statement).mp made.symm
      cases same
      cases prints
  | loop start named compared integer ended =>
      obtain ⟨bound, -, same⟩ := (ofOpener_map_iff statement).mp made.symm
      cases same
  | branch start named compared integer ended =>
      obtain ⟨literal, -, same⟩ := (ofOpener_map_iff statement).mp made.symm
      cases same

end Form

variable {text : String}

/-- Of what is read from a line, only the form of the line itself prints. -/
theorem Layout.ofLine_of_readLine {layout : Layout} {line limit : Nat} {number : UInt32}
    {action : Action} (mem : Stmt.action number action ∈ (layout.readLine line limit).1)
    (prints : action.printed? = some text) :
    Form.ofLine line (layout.text line) = .action action := by
  have invalid {index : Nat} {fault : Fault}
      (same : Stmt.action number action = .onLine index (.invalid fault)) : False := by
    cases same
    cases prints
  cases form : Form.ofLine line (layout.text line) with
  | action own =>
      rw [readLine_action form, List.mem_singleton] at mem
      cases mem
      rfl
  | opener opener =>
      exfalso
      cases found : layout.blockEnd? line limit with
      | none =>
          rw [readLine_unclosed form found, List.mem_singleton] at mem
          cases opener <;> exact invalid mem
      | some close =>
          rw [readLine_captured form found] at mem
          rcases List.mem_cons.mp mem with same | behind
          · cases opener with
            | refused fault => exact invalid same
            | loop guard bound => cases same
            | branch test =>
                dsimp only [captured] at same
                split at same <;> cases same
          · rw [Option.mem_toList] at behind
            obtain ⟨unknown, pos, same⟩ := afterBlock_extra behind
            exact invalid same

/-- Whatever a statement prints that is read from lines of a source is quotable. -/
theorem Source.quotable_of_within {source : Source} {first stop : Nat} {number : UInt32}
    {action : Action} (within : Stmt.Within (.action number action) (source.block first stop))
    (prints : action.printed? = some text) : Quotable text := by
  obtain ⟨line, limit, -, mem⟩ := Layout.within_block.mp within
  exact Form.quotable_of_ofLine (Layout.ofLine_of_readLine mem prints) prints

/-! ## Runs -/

namespace Machine

variable {limits : Limits} {clock : Clock} {machine after : Machine}

/-- Every line that has been printed is quotable. -/
def PrintsQuotable (machine : Machine) : Prop :=
  ∀ line ∈ machine.printed, Quotable line

theorem PrintsQuotable.print {line : String} (before : machine.PrintsQuotable)
    (quotable : Quotable line) : (machine.print line).PrintsQuotable :=
  List.forall_mem_cons.mpr ⟨quotable, before⟩

theorem Acts.printsQuotable {action : Action} (acts : machine.Acts action after)
    (before : machine.PrintsQuotable)
    (quotable : ∀ text, action.printed? = some text → Quotable text) : after.PrintsQuotable := by
  cases acts with
  | blank => exact before
  | comment => exact before
  | printText text => exact before.print (quotable text rfl)
  | printValue text found => exact before.print (.append (quotable text rfl) (quotable_int _))
  | declare name found => exact before
  | assign dest foundLeft foundRight added => exact before

theorem keeps_printsQuotable {stmts : List Stmt}
    (quotable : ∀ number action text, Stmt.Within (.action number action) stmts →
      action.printed? = some text → Quotable text) :
    Keeps limits clock stmts PrintsQuotable := by
  refine Keeps.of_acts (fun machine before => before) ?_
  intro number action machine after within acts before
  exact acts.printsQuotable before fun text prints => quotable number action text within prints

end Machine

/-- Every line that a run prints is quotable. -/
theorem quotable_of_run {config : Config} {clock : Clock} {lines : List String}
    (ran : run config clock text = .output lines) : ∀ line ∈ lines, Quotable line := by
  rw [run, Source.run] at ran
  split at ran
  · cases ran
  · next program read =>
    obtain ⟨-, -, body⟩ := Program.ofSource_eq_ok read
    have kept : Machine.Keeps config.limits clock program.body Machine.PrintsQuotable :=
      Machine.keeps_printsQuotable fun number action text within prints =>
        Source.quotable_of_within (body ▸ within) prints
    have start : Machine.PrintsQuotable .initial := fun _ mem => absurd mem List.not_mem_nil
    have ended := kept.runBlock start
    rw [Outcome.ofEnd] at ran
    split at ran
    · cases ran
      intro line mem
      exact ended line (List.mem_reverse.mp mem)
    · cases ran

end LineScript
