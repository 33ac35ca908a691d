import LineScript.Token
import LineScript.Source

/-!
# Cutting a line into tokens

At each column that is not a gap the longest possible token is taken. A quotation runs to
the next quote, a comment to the end of the line. Nothing is dropped but spaces, tabs and
carriage returns: a character that begins no token becomes a `stray` token of its own, and
so does, as a whole, a quotation without its closing quote.
-/

namespace LineScript

/-- The characters that separate tokens and belong to none. -/
def isGap (c : Char) : Bool :=
  c = ' ' || c = '\t' || c = '\r'

/-- The characters that may begin a name: ASCII letters and the underscore. -/
def isNameStart (c : Char) : Bool :=
  c.isAlpha || c = '_'

/-- The characters that may continue a name. -/
def isNameChar (c : Char) : Bool :=
  c.isAlphanum || c = '_'

/-- The kind of a word of name characters. -/
def wordKind (word : List Char) : TokenKind :=
  match Keyword.ofChars? word with
  | some keyword => .keyword keyword
  | none => .name

/-- How many characters from the start satisfy `p`. -/
def runLength (p : Char → Bool) (chars : List Char) : Nat :=
  (chars.takeWhile p).length

/-- The token after an opening quote: its kind and how many characters follow the quote. -/
def quotation (rest : List Char) : TokenKind × Nat :=
  let inside := runLength (fun c => c ≠ '"' && c ≠ '\n') rest
  if (rest.drop inside).head? = some '"' then (.quoted, inside + 1) else (.stray, inside)

/-- The kind that begins with `c` and is one character long, unless an equals sign follows:
then it is the comparison `op` and two characters long. -/
def orComparison (kind : TokenKind) (op : Comparison) (rest : List Char) : TokenKind × Nat :=
  if rest.head? = some '=' then (.comparison op, 1) else (kind, 0)

/-- The longest token that begins with `c`: its kind and how many of the characters in
`rest` it takes. -/
def tokenAt (c : Char) (rest : List Char) : TokenKind × Nat :=
  if isNameStart c then
    let more := runLength isNameChar rest
    (wordKind (c :: rest.take more), more)
  else if c.isDigit then (.integer, runLength Char.isDigit rest)
  else match c with
    | '/' =>
      if rest.head? = some '/' then (.comment, runLength (fun d => d ≠ '\n') rest) else (.stray, 0)
    | '"' => quotation rest
    | '=' => orComparison .equals .eq rest
    | '!' => orComparison .stray .ne rest
    | '>' => orComparison (.comparison .gt) .ge rest
    | '<' => orComparison (.comparison .lt) .le rest
    | '+' => (.plus, 0)
    | ';' => (.semicolon, 0)
    | '{' => (.openBrace, 0)
    | '}' => (.closeBrace, 0)
    | '(' => (.openParen, 0)
    | ')' => (.closeParen, 0)
    | _ => (.stray, 0)

/-- The tokens of `chars`, the first of which stands in column `col`, after the tokens `done`
(latest first). -/
def scanOnto (done : List Token) (col : Nat) : List Char → List Token
  | [] => done.reverse
  | c :: rest =>
    if isGap c then scanOnto done (col + 1) rest
    else
      let token := tokenAt c rest
      scanOnto (⟨token.1, c :: rest.take token.2, col⟩ :: done) (col + (token.2 + 1))
        (rest.drop token.2)
termination_by chars => chars.length

/-- The tokens of a line. -/
def scan (line : Line) : List Token :=
  scanOnto [] 0 line

/-- The tokens of a line up to its comment. -/
def scanCode (line : Line) : List Token :=
  codeTokens (scan line)

theorem scanOnto_eq_append (done : List Token) (col : Nat) (chars : List Char) :
    scanOnto done col chars = done.reverse ++ scanOnto [] col chars := by
  induction h : chars.length using Nat.strongRecOn generalizing done col chars with
  | _ n ih =>
    cases chars with
    | nil => simp [scanOnto]
    | cons c rest =>
      subst h
      rw [scanOnto, scanOnto]
      split
      · exact ih rest.length (by simp) _ _ _ rfl
      · have shorter : (rest.drop (tokenAt c rest).2).length < (c :: rest).length := by
          simp only [List.length_drop, List.length_cons]; omega
        rw [ih _ shorter _ _ _ rfl, ih _ shorter [_] _ _ rfl]
        simp

end LineScript
