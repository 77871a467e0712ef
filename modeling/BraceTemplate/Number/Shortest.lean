import BraceTemplate.Number.Double

/-! # Shortest decimals

The fewest decimal digits that read back as a given double, and among those the nearest to
it. The numbers that read back as a double are an interval around it; for each count of
digits, only the two decimals on either side of the double can be the nearest ones in it.
-/

namespace BraceTemplate

/-- The decimal with the given digits, the first of which counts `10 ^ exponent`. -/
structure Decimal where
  digits : List Char
  exponent : Int
  deriving Repr, DecidableEq, Inhabited

namespace Decimal

/-- The decimal `coefficient * 10 ^ unit` without the zeros at its end. -/
def ofScaled (coefficient : Nat) (unit : Int) : Decimal :=
  let digits := Nat.toDigits 10 coefficient
  let trimmed := (digits.reverse.dropWhile (· == '0')).reverse
  ⟨if trimmed.isEmpty then ['0'] else trimmed, unit + digits.length - 1⟩

end Decimal

namespace Double

/-- The power of ten at or below a positive ratio. -/
def decimalOrder (numerator denominator : Nat) : Int :=
  if denominator ≤ numerator then
    ((Nat.toDigits 10 (numerator / denominator)).length : Int) - 1
  else
    -((Nat.toDigits 10 ((denominator - 1) / numerator)).length : Int)

/-- The coefficient, if there is one, of a decimal in units of `10 ^ unit` that reads back as
a positive double. Four quarters make one unit of the double's significand. -/
def onGrid? (x : Double) (unit : Int) : Option Nat :=
  let binary := Nat.pow 2 x.exponent.toNat * Nat.pow 10 (-unit).toNat
  let decimal := 4 * Nat.pow 2 (-x.exponent).toNat * Nat.pow 10 unit.toNat
  let narrow := x.significand = Nat.pow 2 52 ∧ minExponent < x.exponent
  let value := 4 * x.significand * binary
  let low := (4 * x.significand - if narrow then 1 else 2) * binary
  let high := (4 * x.significand + 2) * binary
  let readsBack (coefficient : Nat) : Bool :=
    if x.significand % 2 = 0 then
      low ≤ coefficient * decimal && coefficient * decimal ≤ high
    else
      low < coefficient * decimal && coefficient * decimal < high
  let below := value / decimal
  let above := below + 1
  match readsBack below, readsBack above with
  | false, false => none
  | true, false => some below
  | false, true => some above
  | true, true =>
    let underneath := value - below * decimal
    let overhead := above * decimal - value
    if underneath < overhead then some below
    else if overhead < underneath then some above
    else if below % 2 = 0 then some below
    else some above

/-- The shortest decimal that reads back as the magnitude of a double. -/
def shortest (x : Double) : Decimal :=
  if x.significand = 0 then
    ⟨['0'], 0⟩
  else
    let order := decimalOrder x.ratio.1 x.ratio.2
    let grid (count : Nat) : Option Decimal :=
      let unit := order - (count : Int)
      (x.onGrid? unit).map fun coefficient => Decimal.ofScaled coefficient unit
    ((List.range 17).findSome? grid).getD ⟨['0'], 0⟩

end Double

end BraceTemplate
