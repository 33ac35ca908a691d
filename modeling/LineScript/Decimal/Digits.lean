/-!
# Decimal digits

The number that a text of decimal digits stands for. The text may be of any length, so there is
also a form that stops growing at a cap: it decides every question about numbers below the cap,
and its arithmetic stays small.
-/

namespace LineScript

/-- The number that a decimal digit stands for. -/
def digitValue (digit : Char) : Nat :=
  digit.toNat - '0'.toNat

/-- The number that a text of decimal digits stands for. -/
def digitsValue (digits : List Char) : Nat :=
  digits.foldl (fun value digit => 10 * value + digitValue digit) 0

/-- The number that a text of decimal digits stands for, or the cap if the number is larger. -/
def digitsValueUpTo (cap : Nat) (digits : List Char) : Nat :=
  digits.foldl (fun value digit => min (10 * value + digitValue digit) cap) 0

theorem digitsValueUpTo_eq (cap : Nat) (digits : List Char) :
    digitsValueUpTo cap digits = min (digitsValue digits) cap := by
  have step : ∀ (rest : List Char) (value : Nat),
      rest.foldl (fun value digit => min (10 * value + digitValue digit) cap) (min value cap) =
        min (rest.foldl (fun value digit => 10 * value + digitValue digit) value) cap := by
    intro rest
    induction rest with
    | nil => intro value; rfl
    | cons digit rest ih =>
      intro value
      rw [List.foldl_cons, List.foldl_cons, ← ih]
      congr 1
      omega
  simpa [digitsValueUpTo, digitsValue] using step digits 0

end LineScript
