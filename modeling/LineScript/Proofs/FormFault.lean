import LineScript.Proofs.Recognised

/-!
# What a form takes from its line

A line is recognised by its tokens, and what its form refers to are tokens of the line: each
variable is a name that is written there, and a fault is about a value that is too large, about a
function, about the terminator, or about the line as a whole. None of them is about braces.

`Form.Drawn` states this for the tokens of a line. The rules of `Recognised` draw their forms from
the tokens, and so do the forms of a function and of no known form, hence `Form.ofLine` does.
-/

namespace LineScript

/-- The variables that a value refers to. -/
def Operand.refs : Operand → List VarRef
  | .literal _ _ => []
  | .var ref => [ref]

/-- The variables that a statement of one line refers to. A declared name is not a reference. -/
def Action.refs : Action → List VarRef
  | .printValue _ value | .declare _ value => value.refs
  | .assign dest lhs rhs => dest :: (lhs.refs ++ rhs.refs)
  | .blank | .comment | .printText _ | .invalid _ => []

/-- The variables that an opener refers to. -/
def Opener.refs : Opener → List VarRef
  | .loop guard _ => [guard]
  | .branch test => [test.guard]
  | .refused _ => []

/-- The faults that the form of a line with the given tokens may carry. -/
inductive LineFault (line : Nat) (text : Line) (tokens : List Token) : Fault → Prop
  | literal {token} (mem : token ∈ tokens) (kind : token.kind = .integer) :
      LineFault line text tokens ⟨.literalTooLarge token.word, token.pos line⟩
  | function {token} (name) (mem : token ∈ tokens) (kind : token.kind = .keyword .function) :
      LineFault line text tokens ⟨.functionRefused name, token.pos line⟩
  | unknown : LineFault line text tokens (Form.unknown line text)
  | unterminated :
      LineFault line text tokens ⟨.unterminated, .clamped line (trimEnd text).length⟩

theorem LineFault.code_ne {line : Nat} {text : Line} {tokens : List Token} {fault : Fault}
    (drawn : LineFault line text tokens fault) : fault.code ≠ .braces := by
  cases drawn <;> exact Code.noConfusion

namespace Form

/-- The fault that a form carries. -/
def fault? : Form → Option Fault
  | .action (.invalid fault) => some fault
  | .opener (.refused fault) => some fault
  | _ => none

/-- The variables that a form refers to. -/
def refs : Form → List VarRef
  | .action simple => simple.refs
  | .opener opens => opens.refs

/-- A form takes its fault and its variables from the line and its tokens. -/
structure Drawn (line : Nat) (text : Line) (tokens : List Token) (form : Form) : Prop where
  fault : ∀ fault, form.fault? = some fault → LineFault line text tokens fault
  refs : ∀ ref ∈ form.refs, ∃ token ∈ tokens, token.kind = .name ∧ ref = token.varRef line

variable {line : Nat} {text : Line} {tokens : List Token} {form : Form} {fault : Fault}

theorem drawn_invalid (drawn : LineFault line text tokens fault) :
    (Form.action (.invalid fault)).Drawn line text tokens := by
  constructor
  · intro other carried
    cases carried
    exact drawn
  · intro ref mem
    cases mem

theorem drawn_refused (drawn : LineFault line text tokens fault) :
    (Form.opener (.refused fault)).Drawn line text tokens := by
  constructor
  · intro other carried
    cases carried
    exact drawn
  · intro ref mem
    cases mem

theorem drawn_of_refs (valid : form.fault? = none)
    (refs : ∀ ref ∈ form.refs, ∃ token ∈ tokens, token.kind = .name ∧ ref = token.varRef line) :
    form.Drawn line text tokens := by
  refine ⟨?_, refs⟩
  intro fault carried
  rw [valid] at carried
  cases carried

/-! ## Values -/

theorem integer_error {token : Token} (h : token.integer line = .error fault) :
    fault = ⟨.literalTooLarge token.word, token.pos line⟩ := by
  unfold Token.integer at h
  dsimp only at h
  split at h
  · cases h
  · cases h
    rfl

theorem operand_error {token : Token} (h : token.operand line = .error fault) :
    token.kind = .integer ∧ fault = ⟨.literalTooLarge token.word, token.pos line⟩ := by
  unfold Token.operand at h
  split at h
  · next kind =>
    cases value : token.integer line with
    | ok value' => simp [value, Except.map] at h
    | error other =>
        simp only [value, Except.map, Except.error.injEq] at h
        exact ⟨kind, h ▸ integer_error value⟩
  · cases h

/-- A token is read as the integer that it spells or as a variable. -/
theorem operand_cases {token : Token} {operand : Operand} (h : token.operand line = .ok operand) :
    (∃ value, token.integer line = .ok value ∧ operand = .literal value (token.pos line)) ∨
      token.kind ≠ .integer ∧ operand = .var (token.varRef line) := by
  unfold Token.operand at h
  split at h
  · cases read : token.integer line with
    | ok value =>
        rw [read] at h
        cases h
        exact .inl ⟨value, rfl, rfl⟩
    | error fault =>
        rw [read] at h
        cases h
  · next other =>
    cases h
    exact .inr ⟨other, rfl⟩

theorem operand_ok {token : Token} {operand : Operand} (value : token.kind.isValue = true)
    (h : token.operand line = .ok operand) :
    ∀ ref ∈ operand.refs, token.kind = .name ∧ ref = token.varRef line := by
  intro ref mem
  rcases operand_cases h with ⟨_, -, rfl⟩ | ⟨other, rfl⟩
  · cases mem
  · refine ⟨?_, List.mem_singleton.mp mem⟩
    cases kind : token.kind <;> simp_all [TokenKind.isValue]

/-- A value that is too large is one of the tokens. -/
theorem lineFault_operand {token : Token} (mem : token ∈ tokens)
    (h : token.operand line = .error fault) : LineFault line text tokens fault := by
  obtain ⟨kind, rfl⟩ := operand_error h
  exact .literal mem kind

theorem lineFault_integer {token : Token} (mem : token ∈ tokens) (kind : token.kind = .integer)
    (h : token.integer line = .error fault) : LineFault line text tokens fault := by
  rw [integer_error h]
  exact .literal mem kind

/-! ## Forms -/

theorem drawn_of_recognised (recognised : Recognised line tokens form) :
    form.Drawn line text tokens := by
  cases recognised with
  | printText start quoted ended => exact drawn_of_refs rfl fun ref mem => by cases mem
  | @printValue word quote plus value stop start quoted sum term ended =>
      have mem : value ∈ [word, quote, plus, value, stop] := by simp
      cases read : value.operand line with
      | error fault => exact drawn_invalid (lineFault_operand mem read)
      | ok operand =>
          exact drawn_of_refs rfl fun ref inRefs => ⟨value, mem, operand_ok term read ref inRefs⟩
  | @declare word name equals value stop start named equal term ended =>
      have mem : value ∈ [word, name, equals, value, stop] := by simp
      cases read : value.operand line with
      | error fault => exact drawn_invalid (lineFault_operand mem read)
      | ok operand =>
          exact drawn_of_refs rfl fun ref inRefs => ⟨value, mem, operand_ok term read ref inRefs⟩
  | @assign dest equals lhs plus rhs stop named equal left sum right ended =>
      have first : lhs ∈ [dest, equals, lhs, plus, rhs, stop] := by simp
      have second : rhs ∈ [dest, equals, lhs, plus, rhs, stop] := by simp
      cases readLeft : lhs.operand line with
      | error fault => exact drawn_invalid (lineFault_operand first readLeft)
      | ok leftValue =>
          cases readRight : rhs.operand line with
          | error fault => exact drawn_invalid (lineFault_operand second readRight)
          | ok rightValue =>
              refine drawn_of_refs rfl fun ref inRefs => ?_
              change ref ∈ dest.varRef line :: (leftValue.refs ++ rightValue.refs) at inRefs
              rw [List.mem_cons, List.mem_append] at inRefs
              rcases inRefs with rfl | inLeft | inRight
              · exact ⟨dest, List.mem_cons_self, named, rfl⟩
              · exact ⟨lhs, first, operand_ok left readLeft ref inLeft⟩
              · exact ⟨rhs, second, operand_ok right readRight ref inRight⟩
  | @loop word guard less bound brace start named compared integer ended =>
      cases read : bound.integer line with
      | error fault => exact drawn_refused (lineFault_integer (by simp) integer read)
      | ok value =>
          refine drawn_of_refs rfl fun ref inRefs => ?_
          exact ⟨guard, by simp, named, List.mem_singleton.mp inRefs⟩
  | @branch word guard sign literal brace op start named compared integer ended =>
      cases read : literal.integer line with
      | error fault => exact drawn_refused (lineFault_integer (by simp) integer read)
      | ok value =>
          refine drawn_of_refs rfl fun ref inRefs => ?_
          exact ⟨guard, by simp, named, List.mem_singleton.mp inRefs⟩

theorem function?_drawn (h : function? line tokens = some form) :
    form.Drawn line text tokens := by
  unfold function? at h
  split at h
  · next word rest =>
    split at h
    · next kind =>
      cases h
      have named : LineFault line text (word :: rest) ⟨.functionRefused _, word.pos line⟩ :=
        .function ((rest.head?.filter fun token => token.kind = .name).map Token.word)
          List.mem_cons_self kind
      split
      · exact drawn_refused named
      · exact drawn_invalid named
    · cases h
  · cases h

theorem unrecognised_drawn : (unrecognised line text tokens).Drawn line text tokens := by
  unfold unrecognised
  split
  · exact drawn_refused .unknown
  · split
    · exact drawn_invalid .unknown
    · exact drawn_invalid .unterminated

theorem ofCode_drawn : (ofCode line text tokens).Drawn line text tokens := by
  rcases ofCode_cases line text tokens with recognised | function | unknown
  · exact drawn_of_recognised recognised
  · exact function?_drawn function
  · rw [unknown]
    exact unrecognised_drawn

/-- The form of a line is drawn from the tokens before its comment. -/
theorem ofLine_drawn (line : Nat) (text : Line) :
    (ofLine line text).Drawn line text (scanCode text) := by
  unfold ofLine scanCode
  split
  · exact drawn_of_refs rfl fun ref mem => by cases mem
  · next first rest cut =>
    split
    · exact drawn_of_refs rfl fun ref mem => by cases mem
    · rw [cut]
      exact ofCode_drawn

/-- The form of a line never carries a fault of the braces. -/
theorem ofLine_code_ne (line : Nat) (text : Line) (fault : Fault)
    (carried : (ofLine line text).fault? = some fault) : fault.code ≠ .braces :=
  ((ofLine_drawn line text).fault fault carried).code_ne

end Form

end LineScript
