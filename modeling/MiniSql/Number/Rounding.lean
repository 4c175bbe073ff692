/-
# Rounding to the nearest floating point number

Every operation has an exact result, a fraction of integers, and gives the floating point number
nearest to it; of two equally near the one with the even significand. Results too large for any
number round to infinity. So the operations here compute the fraction and round once.
-/

import MiniSql.Number.Binary64

namespace MiniSql
namespace Number

/-- The natural number nearest to `num / den`; a half goes to the even neighbour. -/
def roundQuotient (num den : Nat) : Nat :=
  let q := num / den
  let r := num % den
  if den < 2 * r ∨ (2 * r = den ∧ q % 2 = 1) then q + 1 else q

/-- The fraction `num / den` divided by `2 ^ scale`. -/
def scaleDown (num den : Nat) (scale : Int) : Nat × Nat :=
  (num * 2 ^ (-scale).toNat, den * 2 ^ scale.toNat)

/-- The greatest power of two that is not above the positive fraction `num / den`. -/
def binaryOrder (num den : Nat) : Int :=
  let guess : Int := (num.log2 : Int) - (den.log2 : Int)
  let (n, d) := scaleDown num den guess
  if n < d then guess - 1 else guess

namespace Binary64

/-- The least exponent of a finite number. -/
def leastExponent : Int := -1074

/-- The magnitude nearest to a fraction. With the unit `2 ^ scale` in the last place it has the
significand `q`; a significand that rounds up to the next power of two carries into the
exponent, and one beyond the largest finite number is infinite. -/
def roundMagnitude (num den : Nat) : Nat :=
  if num = 0 then 0
  else
    let scale := max leastExponent (binaryOrder num den - 52)
    let (n, d) := scaleDown num den scale
    min infiniteMagnitude ((scale - leastExponent).toNat * 2 ^ 52 + roundQuotient n d)

/-- The number nearest to a fraction with a sign. -/
def round (negative : Bool) (num den : Nat) : Binary64 := ofParts negative (roundMagnitude num den)

/-- The number nearest to an integer. -/
def ofInt (i : Int) : Binary64 := round (i < 0) i.natAbs 1

/-- The exact value of a finite number, as a fraction. -/
def fraction (x : Binary64) : Int × Nat :=
  let n : Int := x.significand * 2 ^ x.exponent.toNat
  (if x.negative then -n else n, 2 ^ (-x.exponent).toNat)

/-- The sum. Infinities of both signs have none; an exact sum of zero is positive unless both
numbers are negative. -/
def add (x y : Binary64) : Binary64 :=
  if x.isNaN || y.isNaN then notANumber
  else if !x.isFinite then
    if y.isFinite || x.negative == y.negative then x else notANumber
  else if !y.isFinite then y
  else
    let (a, b) := x.fraction
    let (c, d) := y.fraction
    let sum := a * d + c * b
    if sum = 0 then zero (x.negative && y.negative)
    else round (sum < 0) sum.natAbs (b * d)

/-- The number divided by a count that is not zero. -/
def divideBy (x : Binary64) (count : Nat) : Binary64 :=
  if !x.isFinite then x
  else
    let (a, b) := x.fraction
    round x.negative a.natAbs (b * count)

end Binary64

end Number
end MiniSql
