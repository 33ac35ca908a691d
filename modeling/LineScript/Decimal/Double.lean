import LineScript.Decimal.Shortest

/-!
# Decimal text of doubles

A double is written with the fewest digits that read back as the same double. From 10⁻⁵ up to,
but not including, 10¹⁶ the digits are written around the point, with at least one digit on
either side; outside that range one digit is written before the point and an exponent with its
sign follows.
-/

namespace LineScript

/-- How many fractions there are, 2⁵²: the lowest bits of a double. -/
def Double.fractions : Nat := 4503599627370496

/-- How many exponents there are, 2¹¹: the bits above the fraction. The bit above them is the
sign. -/
def Double.exponents : Nat := 2048

/-- The digits of a decimal of a finite double other than zero. -/
def Double.decimal (x : Float) : Decimal :=
  let bits : Nat := x.toBits.toNat
  let fraction : Nat := bits % fractions
  let exponent : Nat := bits / fractions % exponents
  if exponent = 0 then (Rounded.ofBinary fraction (-1074) false).shortest
  else
    (Rounded.ofBinary (fractions + fraction) ((exponent : Int) - 1075)
      (fraction = 0 ∧ 1 < exponent)).shortest

/-- The text of `digits · 10 ^ exponent`. -/
def Decimal.text (decimal : Decimal) : String :=
  let digits := (toString decimal.digits).toList
  let point : Int := digits.length + decimal.exponent
  let zeros (n : Nat) : List Char := List.replicate n '0'
  if 0 ≤ decimal.exponent ∧ point ≤ 16 then
    String.ofList (digits ++ zeros decimal.exponent.toNat ++ ['.', '0'])
  else if 0 < point ∧ point ≤ 16 then
    String.ofList (digits.take point.toNat ++ '.' :: digits.drop point.toNat)
  else if -5 < point ∧ point ≤ 0 then
    String.ofList ('0' :: '.' :: zeros (-point).toNat ++ digits)
  else
    String.ofList (digits.take 1 ++ (if digits.length = 1 then [] else '.' :: digits.drop 1)) ++
      (if 1 ≤ point then "e+" else "e") ++ toString (point - 1)

/-- The text of a finite double. -/
def Double.text (x : Float) : String :=
  let unsigned := fractions * exponents
  let sign := if x.toBits.toNat < unsigned then "" else "-"
  if x.toBits.toNat % unsigned = 0 then sign ++ "0.0" else sign ++ (Double.decimal x).text

end LineScript
