/-
# Floating point numbers of 64 bits

A number is its 64 bits: the sign, eleven bits of exponent and fifty-two of fraction. Without the
sign the bits, read as a natural number, order the magnitudes: zero first, then the subnormal and
the normal numbers, then infinity, then whatever is not a number.

Two orders come from that. The numeric order knows one zero and leaves out what is not a number
(`compare?`). The total order ranks every bit pattern, negative zero before positive zero and
what is not a number outside the infinities (`rank`).

The value of a finite number is `±significand · 2 ^ exponent`.
-/

import MiniSql.Number.Integer

namespace MiniSql
namespace Number

/-- A floating point number, told apart from others by its bits. -/
structure Binary64 where
  bits : UInt64
  deriving DecidableEq, Repr

namespace Binary64

/-- The bits without the sign. -/
def magnitude (x : Binary64) : Nat := x.bits.toNat % 2 ^ 63

/-- The sign bit is set. -/
def negative (x : Binary64) : Bool := 2 ^ 63 ≤ x.bits.toNat

/-- The number with this sign and these other bits. -/
def ofParts (negative : Bool) (magnitude : Nat) : Binary64 :=
  ⟨UInt64.ofNat (if negative then 2 ^ 63 + magnitude else magnitude)⟩

/-- The magnitude of infinity: all bits of the exponent, none of the fraction. -/
def infiniteMagnitude : Nat := 2047 * 2 ^ 52

/-- Infinity, with a sign. -/
def infinity (negative : Bool) : Binary64 := ofParts negative infiniteMagnitude

/-- What stands for the outcome of an operation that has none. -/
def notANumber : Binary64 := ofParts false (infiniteMagnitude + 2 ^ 51)

/-- Zero, with a sign. -/
def zero (negative : Bool) : Binary64 := ofParts negative 0

def isNaN (x : Binary64) : Bool := infiniteMagnitude < x.magnitude

def isFinite (x : Binary64) : Bool := x.magnitude < infiniteMagnitude

def isZero (x : Binary64) : Bool := x.magnitude == 0

/-- The natural number that a finite number is a scaled copy of. -/
def significand (x : Binary64) : Nat :=
  if x.magnitude < 2 ^ 52 then x.magnitude else 2 ^ 52 + x.magnitude % 2 ^ 52

/-- The power of two that scales it. -/
def exponent (x : Binary64) : Int := (max 1 (x.magnitude / 2 ^ 52) : Nat) - 1075

/-- The place of a number among all others: its magnitude, negated below zero. Both zeros have
the same place. -/
def place (x : Binary64) : Int := if x.negative then -(x.magnitude : Int) else x.magnitude

/-- The numeric order. What is not a number has no place in it. -/
def compare? (x y : Binary64) : Option Ordering :=
  if x.isNaN || y.isNaN then none else some (compare x.place y.place)

/-- The place of a bit pattern in the total order. -/
def rank (x : Binary64) : Int := if x.negative then -(x.magnitude : Int) - 1 else x.magnitude

/-- The total order. -/
def compareTotal (x y : Binary64) : Ordering := compare x.rank y.rank

/-- The sign and the other bits are all there is. -/
theorem ofParts_negative_magnitude (x : Binary64) : ofParts x.negative x.magnitude = x := by
  obtain ⟨b⟩ := x
  have hb := b.toNat_lt
  simp only [ofParts, negative, magnitude, mk.injEq]
  apply UInt64.toNat_inj.1
  rw [UInt64.toNat_ofNat']
  by_cases h : 2 ^ 63 ≤ b.toNat
  · simp only [h, decide_true, if_true]
    omega
  · simp only [h, decide_false, if_neg, Bool.false_eq_true, not_false_eq_true]
    omega

end Binary64

end Number
end MiniSql
