import FlipperBlocks.Number.Binary64

/-! The binary number nearest to a fraction or a decimal.

The fraction is scaled by a power of two until its whole part has 53 bits, or as many as the
smallest exponent leaves, and is then rounded; a tie goes to the even neighbour. -/
namespace FlipperBlocks.Binary64

/-- The quotient rounded to the nearest whole number, a tie to the even one. -/
def roundDiv (a b : Nat) : Nat :=
  let quotient := a / b
  let twice := 2 * (a % b)
  if twice < b then quotient
  else if twice = b then quotient + quotient % 2
  else quotient + 1

/-- The fraction `num / den` divided by `2 ^ q`. -/
def scaled (num den : Nat) (q : Int) : Nat × Nat :=
  if 0 ≤ q then (num, den * twoTo q.toNat) else (num * twoTo (-q).toNat, den)

/-- The exponent at which a positive fraction has a significand of 53 bits, or the least one. -/
def ratioExponent (num den : Nat) : Int :=
  let guess : Int := (num.log2 : Int) - den.log2 - 52
  let parts := scaled num den guess
  max (-1074) (if parts.1 / parts.2 < twoTo 52 then guess - 1 else guess)

/-- The magnitude of the number nearest to `num / den`. -/
def nearestMagnitude (num den : Nat) : Nat :=
  if num = 0 then 0
  else
    let q := ratioExponent num den
    let parts := scaled num den q
    min infinityMagnitude ((q + 1074).toNat * twoTo 52 + roundDiv parts.1 parts.2)

/-- The number nearest to `± digits · 10 ^ exponent`. Exponents far outside the range are
answered without computing the power. -/
def ofDecimal (negative : Bool) (digits : Nat) (exponent : Int) : Binary64 :=
  ofMagnitude negative <|
    if digits = 0 then 0
    else if 400 < exponent then infinityMagnitude
    else if exponent < -(401 + (digits.log2 : Int)) then 0
    else if 0 ≤ exponent then nearestMagnitude (digits * tenTo exponent.toNat) 1
    else nearestMagnitude digits (tenTo (-exponent).toNat)

/-- The number nearest to a whole number. -/
def ofInt (n : Int) : Binary64 := ofDecimal (n < 0) n.natAbs 0

end FlipperBlocks.Binary64
