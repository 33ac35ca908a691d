/-!
# Shortest decimals

A binary fraction of limited precision stands for a whole interval of reals: all that round to
it. Its shortest decimal is the one with the fewest digits in that interval, and of those the
nearest to the fraction itself. All comparisons are made between natural numbers.
-/

namespace LineScript

/-- The number `digits · 10 ^ exponent`. -/
structure Decimal where
  digits : Nat
  exponent : Int
deriving DecidableEq

/-- A positive real as a quotient of natural numbers, with the quotients at the two ends of the
interval that it stands for, over the same denominator. -/
structure Rounded where
  low : Nat
  value : Nat
  high : Nat
  denominator : Nat
  /-- Whether the ends belong to the interval. -/
  closed : Bool

namespace Rounded

/-- The interval of `mantissa · 2 ^ exponent`. Below a power of two the neighbours are closer
together, which halves the lower part. The ends round to an even mantissa only. -/
def ofBinary (mantissa : Nat) (exponent : Int) (powerOfTwo : Bool) : Rounded :=
  let scale := Nat.pow 2 exponent.toNat
  { low := (4 * mantissa - if powerOfTwo then 1 else 2) * scale
    value := 4 * mantissa * scale
    high := (4 * mantissa + 2) * scale
    denominator := 4 * Nat.pow 2 (-exponent).toNat
    closed := mantissa % 2 = 0 }

/-- Whether the interval contains the quotient of `numerator` and the common denominator times
`scale`. -/
def contains (x : Rounded) (numerator scale : Nat) : Bool :=
  if x.closed then x.low * scale ≤ numerator && numerator ≤ x.high * scale
  else x.low * scale < numerator && numerator < x.high * scale

/-- The decimal in the interval on the grid of multiples of `10 ^ grid`, if one of the two next
to the value is: the nearer one, and of two that are equally near the even one. -/
def onGrid (x : Rounded) (grid : Int) : Option Decimal :=
  let scale := Nat.pow 10 (-grid).toNat
  let unit := x.denominator * Nat.pow 10 grid.toNat
  let below := x.value * scale / unit
  let distance := x.value * scale - below * unit
  let takesBelow := x.contains (below * unit) scale && 0 < below
  let takesAbove := x.contains ((below + 1) * unit) scale
  let prefersBelow := 2 * distance < unit || (2 * distance = unit && below % 2 = 0)
  if takesBelow && (prefersBelow || !takesAbove) then some ⟨below, grid⟩
  else if takesAbove then some ⟨below + 1, grid⟩
  else none

/-- The first grid, from `grid` down, that has a decimal in the interval. -/
def search (x : Rounded) : Nat → Int → Option Decimal
  | 0, _ => none
  | tries + 1, grid =>
    match x.onGrid grid with
    | some decimal => some decimal
    | none => search x tries (grid - 1)

end Rounded

/-- How many decimal digits a number has, zero having none. -/
def decimalLength (n : Nat) : Nat :=
  if n = 0 then 0 else decimalLength (n / 10) + 1

/-- The same number without zeros at the end of its digits. -/
def Decimal.normalized (decimal : Decimal) : Decimal :=
  if decimal.digits = 0 then decimal
  else if decimal.digits % 10 = 0 then
    Decimal.normalized ⟨decimal.digits / 10, decimal.exponent + 1⟩
  else decimal
termination_by decimal.digits
decreasing_by omega

/-- The largest exponent of ten that is worth trying: of a value below one, the denominator
tells how small it can be. -/
def Rounded.topGrid (x : Rounded) : Int :=
  decimalLength (x.value / x.denominator) - (if x.value < x.denominator then
    decimalLength (x.denominator / x.value) else 0)

/-- The shortest decimal of an interval. Nineteen digits more than the leading one always
suffice for words of 64 bits. -/
def Rounded.shortest (x : Rounded) : Decimal :=
  ((x.search 20 x.topGrid).getD ⟨0, 0⟩).normalized

end LineScript
