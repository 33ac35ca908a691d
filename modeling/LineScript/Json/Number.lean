import LineScript.Json.Cursor
import LineScript.Decimal.Digits

/-!
# JSON numbers

A number without a fraction or exponent is kept exactly if it fits in a word of 64 bits, signed
or not. Any other number becomes a double. Its digits are gathered in a word for as long as
they fit, the digits after that only count for the magnitude, and the word is then multiplied
or divided by one power of ten; the last digits of the double depend on that order.
-/

namespace LineScript.Json

/-- A number that has been read. -/
inductive Number where
  | natural (value : Nat)
  /-- The negative of a positive number. -/
  | negative (value : Nat)
  | double (value : Float)

/-- The digits of a number gathered so far: the digits that fit in a word, as a number, and how
many came after them. -/
structure Gathered where
  word : Nat
  dropped : Nat

/-- Gathers one more digit. Once a digit does not fit, all later ones are dropped. -/
def Gathered.add (gathered : Gathered) (digit : Char) : Gathered :=
  let next := gathered.word * 10 + digitValue digit
  if gathered.dropped = 0 ∧ next < UInt64.size then ⟨next, 0⟩
  else ⟨gathered.word, gathered.dropped + 1⟩

/-- The digits at the cursor. -/
def Cursor.digits (cursor : Cursor) : List Char :=
  cursor.rest.takeWhile Char.isDigit

/-- The power of ten as a double. -/
def tenTo (exponent : Nat) : Float :=
  Float.ofScientific 1 false exponent

/-- Scales a double by a power of ten. The largest power used is 10³⁰⁸; for a smaller quotient
the division is repeated. There is no result if it would be infinite. -/
def scale (x : Float) (exponent : Int) : Option Float :=
  if 0 ≤ exponent then
    if exponent ≤ 308 then
      let product := x * tenTo exponent.toNat
      if product.isInf then none else some product
    else if x == 0 then some x else none
  else if -308 ≤ exponent then some (x / tenTo (-exponent).toNat)
  else if x == 0 then some x
  else scale (x / tenTo 308) (exponent + 308)
termination_by (-exponent).toNat
decreasing_by omega

/-- The double of a word and a power of ten, once the whole number has been read. -/
def finish (positive : Bool) (word : Nat) (exponent : Int) (cursor : Cursor) : Reading Number :=
  match scale (Float.ofNat word) exponent with
  | none => cursor.failHere .numberTooLarge
  | some x => .ok (.double (if positive then x else -x), cursor)

/-- The largest exponent that is read exactly. -/
def maxExponent : Nat := 2147483647

/-- Brings an exponent into the range of a signed word of 32 bits. -/
def clampExponent (exponent : Int) : Int :=
  max (-(maxExponent : Int) - 1) (min maxExponent exponent)

/-- How many digits of an exponent are read before it becomes too large, if it does. -/
def tooLargeAfter (value count : Nat) : List Char → Option Nat
  | [] => none
  | digit :: rest =>
    let next := value * 10 + digitValue digit
    if maxExponent < next then some (count + 1) else tooLargeAfter next (count + 1) rest

/-- Reads the digits of an exponent and finishes the number. An exponent that is too large makes
the number too large, or zero. -/
def readExponentDigits (positive : Bool) (word : Nat) (shift : Int) (raises : Bool)
    (cursor : Cursor) : Reading Number :=
  match cursor.rest, cursor.digits with
  | [], _ => cursor.failHere .endInValue
  | _, [] => cursor.failNext .badNumber
  | _, digits =>
    match tooLargeAfter 0 0 digits with
    | some count =>
      if word ≠ 0 ∧ raises then (cursor.skip count).failHere .numberTooLarge
      else .ok (.double (if positive then 0.0 else -0.0), cursor.skip digits.length)
    | none =>
      let value : Int := digitsValue digits
      finish positive word (clampExponent (if raises then shift + value else shift - value))
        (cursor.skip digits.length)

/-- Reads an exponent from its letter on. -/
def readExponent (positive : Bool) (word : Nat) (shift : Int) (cursor : Cursor) :
    Reading Number :=
  let after := cursor.advance
  match after.rest.head? with
  | some '+' => readExponentDigits positive word shift true after.advance
  | some '-' => readExponentDigits positive word shift false after.advance
  | _ => readExponentDigits positive word shift true after

/-- Whether a character begins an exponent. -/
def isExponentLetter (c : Option Char) : Bool :=
  c = some 'e' || c = some 'E'

/-- Reads a fraction from its point on. -/
def readFraction (positive : Bool) (word : Nat) (shift : Int) (cursor : Cursor) :
    Reading Number :=
  let after := cursor.advance
  match after.rest, after.digits with
  | [], _ => after.failHere .endInValue
  | _, [] => after.failNext .badNumber
  | _, digits =>
    let gathered := digits.foldl Gathered.add ⟨word, 0⟩
    let shift := shift - (digits.length - gathered.dropped : Nat)
    let behind := after.skip digits.length
    if isExponentLetter behind.rest.head? then readExponent positive gathered.word shift behind
    else finish positive gathered.word shift behind

/-- The number of a word without fraction or exponent. A negative one that does not fit in a
signed word, and the negative of zero, become doubles. -/
def wholeNumber (positive : Bool) (word : Nat) : Number :=
  if positive then .natural word
  else if 0 < word ∧ Int64.minValue.toInt ≤ -(word : Int) then .negative word
  else .double (-(Float.ofNat word))

/-- Reads what follows the digits before the point. -/
def readAfterInteger (positive : Bool) (gathered : Gathered) (cursor : Cursor) :
    Reading Number :=
  if cursor.rest.head? = some '.' then
    readFraction positive gathered.word gathered.dropped cursor
  else if isExponentLetter cursor.rest.head? then
    readExponent positive gathered.word gathered.dropped cursor
  else if gathered.dropped = 0 then .ok (wholeNumber positive gathered.word, cursor)
  else finish positive gathered.word gathered.dropped cursor

/-- Reads a number after its sign. No further digit may follow a leading zero. -/
def readNumber (positive : Bool) (cursor : Cursor) : Reading Number :=
  match cursor.rest, cursor.digits with
  | [], _ => cursor.failHere .endInValue
  | _, [] => cursor.failNext .badNumber
  | _, '0' :: more =>
    if more.isEmpty then readAfterInteger positive ⟨0, 0⟩ cursor.advance
    else cursor.advance.failNext .badNumber
  | _, digits =>
    readAfterInteger positive (digits.foldl Gathered.add ⟨0, 0⟩) (cursor.skip digits.length)

end LineScript.Json
