/-! # Double precision numbers

A finite binary number with 53 bits of significand. Every operation computes its exact
result as a ratio of naturals and rounds it once, to the nearest number and to the even
neighbour where two are equally near.
-/

namespace BraceTemplate

/-- The number `significand * 2 ^ exponent`, negated if `negative` holds. -/
structure Double where
  negative : Bool
  significand : Nat
  exponent : Int
  deriving Repr, DecidableEq, Inhabited

namespace Double

/-- The exponent of the smallest numbers. -/
def minExponent : Int := -1074

/-- The exponent of the largest numbers. -/
def maxExponent : Int := 971

/-- The ratio of two naturals as a natural, a half going to the even neighbour. -/
def roundHalfEven (numerator denominator : Nat) : Nat :=
  let quotient := numerator / denominator
  let remainder := 2 * (numerator % denominator)
  if remainder < denominator then
    quotient
  else if denominator < remainder then
    quotient + 1
  else if quotient % 2 = 0 then
    quotient
  else
    quotient + 1

/-- The ratio divided by `2 ^ exponent`, as a ratio again. -/
def scaleRatio (numerator denominator : Nat) (exponent : Int) : Nat × Nat :=
  (numerator * Nat.pow 2 (-exponent).toNat, denominator * Nat.pow 2 exponent.toNat)

/-- The power of two at or below a positive ratio. -/
def binaryOrder (numerator denominator : Nat) : Int :=
  let estimate : Int := (numerator.log2 : Int) - denominator.log2
  let (scaled, unit) := scaleRatio numerator denominator estimate
  if scaled < unit then estimate - 1 else estimate

/-- The double nearest to a ratio, or nothing if the ratio is beyond the largest of them. -/
def ofRatio (negative : Bool) (numerator denominator : Nat) : Option Double :=
  if numerator = 0 then
    some ⟨negative, 0, minExponent⟩
  else
    let exponent := max (binaryOrder numerator denominator - 52) minExponent
    let (scaled, unit) := scaleRatio numerator denominator exponent
    let rounded := roundHalfEven scaled unit
    let (significand, exponent) :=
      if rounded = Nat.pow 2 53 then (Nat.pow 2 52, exponent + 1) else (rounded, exponent)
    if maxExponent < exponent then none else some ⟨negative, significand, exponent⟩

/-- The magnitude of a double as a ratio. -/
def ratio (x : Double) : Nat × Nat :=
  (x.significand * Nat.pow 2 x.exponent.toNat, Nat.pow 2 (-x.exponent).toNat)

/-- The product of two doubles, or nothing if it is too large. -/
def mul (x y : Double) : Option Double :=
  ofRatio (x.negative != y.negative) (x.ratio.1 * y.ratio.1) (x.ratio.2 * y.ratio.2)

/-- The quotient of two doubles, of which the second is not zero. -/
def div (x y : Double) : Option Double :=
  ofRatio (x.negative != y.negative) (x.ratio.1 * y.ratio.2) (x.ratio.2 * y.ratio.1)

/-- The double nearest to a natural number. -/
def ofNat (n : Nat) : Option Double :=
  ofRatio false n 1

end Double

end BraceTemplate
