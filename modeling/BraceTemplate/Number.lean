import BraceTemplate.Number.Shortest
import BraceTemplate.Text.Digits

/-! # Numbers

A number is an integer or a double, and the two are told apart even where they are equal in
value. This module writes numbers as text and reads them from their parts.
-/

namespace BraceTemplate

/-- A number in the data of a template. -/
inductive Number where
  | integer (value : Int)
  | double (value : Double)
  deriving Repr, DecidableEq, Inhabited

/-! ## Writing -/

/-- When decimals are written positionally: from exponent `least` up to, not including, `bound`. -/
structure DecimalLayout where
  least : Int
  bound : Int
  deriving Repr, DecidableEq

namespace DecimalLayout

/-- The digits with a point at its place, at least one digit on either side of it. -/
def positional (decimal : Decimal) : List Char :=
  if decimal.exponent < 0 then
    ['0', '.'] ++ List.replicate (-decimal.exponent - 1).toNat '0' ++ decimal.digits
  else
    let count := decimal.exponent.toNat + 1
    let whole := decimal.digits.take count
    let fraction := decimal.digits.drop count
    whole ++ List.replicate (count - whole.length) '0' ++ ['.'] ++
      if fraction.isEmpty then ['0'] else fraction

/-- The digits with a point after the first, then the exponent with its sign. -/
def scientific (decimal : Decimal) : List Char :=
  let fraction := decimal.digits.drop 1
  decimal.digits.take 1 ++ (if fraction.isEmpty then [] else '.' :: fraction) ++
    ['e', if decimal.exponent < 0 then '-' else '+'] ++ Nat.toDigits 10 decimal.exponent.natAbs

/-- The text of a decimal in this layout. -/
def write (layout : DecimalLayout) (decimal : Decimal) : List Char :=
  if layout.least ≤ decimal.exponent ∧ decimal.exponent < layout.bound then
    positional decimal
  else
    scientific decimal

end DecimalLayout

namespace Number

/-- Doubles are written positionally from five zeros after the point up to sixteen digits before
it. -/
def layout : DecimalLayout := ⟨-5, 16⟩

/-- The text of a number, the shortest one for a double. -/
def text : Number → String
  | .integer value => toString value
  | .double value =>
    String.ofList ((if value.negative then ['-'] else []) ++ layout.write value.shortest)

/-! ## Reading -/

/-- The largest integer that is kept as an integer, and the bound on the digits of a double. -/
def maxInteger : Nat := Nat.pow 2 64 - 1

/-- The least integer that is kept as an integer. -/
def minInteger : Int := -(Nat.pow 2 63 : Nat)

/-- Continues a number with digits for as long as it stays within `maxInteger`, and counts the
digits that were left out. -/
def continueWithin (start : Nat) : List Char → Nat × Nat
  | [] => (start, 0)
  | c :: digits =>
    let next := 10 * start + Text.digitValue c
    if next ≤ maxInteger then continueWithin next digits else (start, digits.length + 1)

/-- A double times a power of ten, which is itself rounded to a double first. A power below
`10 ^ -308` is applied in steps of that size. -/
def scaleDouble (x : Double) (power : Int) : Option Double :=
  if x.significand = 0 then
    some x
  else if 308 < power then
    none
  else if 0 ≤ power then do
    x.mul (← Double.ofNat (Nat.pow 10 power.toNat))
  else if -308 ≤ power then do
    x.div (← Double.ofNat (Nat.pow 10 (-power).toNat))
  else do
    let step ← x.div (← Double.ofNat (Nat.pow 10 308))
    let second ← step.div (← Double.ofNat (Nat.pow 10 (min 308 (-power - 308)).toNat))
    if -616 ≤ power then some second else some ⟨x.negative, 0, Double.minExponent⟩

/-- The double with the given digits before and after the point, times a power of ten. The
digits become one integer first, and those that do not fit into it only count as zeros. -/
def ofParts? (negative : Bool) (whole fraction : List Char) (power : Int) : Option Number := do
  let (leading, wholeLeft) := continueWithin 0 whole
  let (coefficient, fractionLeft) := continueWithin leading fraction
  let places : Int := (fraction.length : Int) - fractionLeft
  let magnitude ← scaleDouble (← Double.ofNat coefficient) (wholeLeft - places + power)
  some (.double { magnitude with negative })

/-- The number written with digits alone: an integer if it fits, else a double. -/
def ofDigits? (negative : Bool) (whole : List Char) : Option Number :=
  let value := Text.continueNumber 0 whole
  if negative then
    if value ≠ 0 ∧ minInteger ≤ -(value : Int) then some (.integer (-value))
    else ofParts? negative whole [] 0
  else if value ≤ maxInteger then
    some (.integer value)
  else
    ofParts? negative whole [] 0

end Number

end BraceTemplate
