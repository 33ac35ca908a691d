import LineScript.Proofs.Execution
import LineScript.Proofs.FormFault

/-!
# Where the values of a form are written

The values that a statement of one line uses are written on the line: each of them is what a token
of the line reads as. `Form.ReadFrom` states this for the tokens of a line. Like the references and
faults that are taken from a line, the values are followed through the rules of `Recognised`, to
`Form.ofLine`.

What holds of every value that a token can be read as therefore holds of the values of a form. Their
positions are those of the tokens, so all of them lie on the line.
-/

namespace LineScript

namespace Form

/-- The values that a form uses on its line. -/
def operands : Form → List Operand
  | .action simple => simple.operands
  | .opener _ => []

/-- Each value of a form is what one of the tokens is read as. -/
def ReadFrom (line : Nat) (tokens : List Token) (form : Form) : Prop :=
  ∀ operand ∈ form.operands, ∃ token ∈ tokens, token.operand line = .ok operand

variable {line : Nat} {tokens : List Token} {form : Form}

theorem readFrom_of_nil (none : form.operands = []) : form.ReadFrom line tokens := by
  intro operand mem
  rw [none] at mem
  cases mem

/-- An opener, read or refused, uses no values. -/
theorem ofOpener_operands (result : Except Fault Opener) : (ofOpener result).operands = [] := by
  cases result <;> rfl

/-- A form with one value, or the fault of reading it. -/
theorem readFrom_operand {token : Token} (mem : token ∈ tokens) {action : Operand → Action}
    (uses : ∀ operand, (action operand).operands = [operand]) :
    (ofAction ((token.operand line).map action)).ReadFrom line tokens := by
  cases read : token.operand line with
  | error fault => exact readFrom_of_nil rfl
  | ok operand =>
      intro used inForm
      change used ∈ (action operand).operands at inForm
      rw [uses, List.mem_singleton] at inForm
      exact ⟨token, mem, inForm ▸ read⟩

theorem readFrom_of_recognised (recognised : Recognised line tokens form) :
    form.ReadFrom line tokens := by
  cases recognised with
  | printText start quoted ended => exact readFrom_of_nil rfl
  | printValue start quoted sum term ended => exact readFrom_operand (by simp) fun _ => rfl
  | declare start named equal term ended => exact readFrom_operand (by simp) fun _ => rfl
  | @assign dest equals lhs plus rhs stop named equal left sum right ended =>
      cases readLeft : lhs.operand line with
      | error fault => exact readFrom_of_nil rfl
      | ok left =>
          cases readRight : rhs.operand line with
          | error fault => exact readFrom_of_nil rfl
          | ok right =>
              intro used mem
              rcases List.mem_cons.mp mem with rfl | mem
              · exact ⟨lhs, by simp, readLeft⟩
              · cases List.mem_singleton.mp mem
                exact ⟨rhs, by simp, readRight⟩
  | loop start named compared integer ended => exact readFrom_of_nil (ofOpener_operands _)
  | branch start named compared integer ended => exact readFrom_of_nil (ofOpener_operands _)

theorem function?_readFrom (h : function? line tokens = some form) :
    form.ReadFrom line tokens := by
  unfold function? at h
  split at h
  · split at h
    · cases h
      apply readFrom_of_nil
      split <;> rfl
    · cases h
  · cases h

theorem unrecognised_readFrom (text : Line) :
    (unrecognised line text tokens).ReadFrom line tokens := by
  apply readFrom_of_nil
  unfold unrecognised
  split
  · rfl
  · split <;> rfl

theorem ofCode_readFrom (text : Line) : (ofCode line text tokens).ReadFrom line tokens := by
  rcases ofCode_cases line text tokens with recognised | function | unknown
  · exact readFrom_of_recognised recognised
  · exact function?_readFrom function
  · rw [unknown]
    exact unrecognised_readFrom text

/-- The values of the form of a line are read from the tokens before its comment. -/
theorem ofLine_readFrom (line : Nat) (text : Line) :
    (ofLine line text).ReadFrom line (scanCode text) := by
  unfold ofLine scanCode
  split
  · exact readFrom_of_nil rfl
  · next first rest cut =>
    split
    · exact readFrom_of_nil rfl
    · rw [cut]
      exact ofCode_readFrom text

end Form

end LineScript
