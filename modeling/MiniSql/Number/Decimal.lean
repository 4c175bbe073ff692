/-
# Decimal text of floating point numbers

Reading: an optional sign, then digits with at most one point and at least one digit, then
optionally `e` and a signed exponent; or one of the words `inf`, `infinity` and `nan` in any
case. The number nearest to the decimal is read.

Writing: the fewest digits that read back as the same number, and of those the nearest to it; of
two equally near the greater magnitude. They are always written positionally: without an
exponent, and without a point where there is no fraction.
-/

import MiniSql.Number.Integer
import MiniSql.Number.Rounding

namespace MiniSql
namespace Number

/-- Why a text is no floating point number. -/
inductive FloatFault where
  | empty
  | invalid
  deriving DecidableEq, Repr

/-- The fault in words. -/
def FloatFault.message : FloatFault → String
  | empty => "cannot parse float from empty string"
  | invalid => "invalid float literal"

/-- The decimal `digits · 10 ^ exponent`. -/
structure Decimal where
  digits : Nat
  exponent : Int
  deriving DecidableEq, Repr

/-- The number of digits a natural number is written with. -/
def digitCount (n : Nat) : Nat := (Nat.toDigits 10 n).length

namespace Decimal

/-- The number that digits spell. -/
def ofDigits (digits : List Char) : Nat := digits.foldl (fun n c => 10 * n + digitValue c) 0

/-- An exponent: an optional sign and at least one digit. -/
def readExponent (s : List Char) : Option Int :=
  let read (digits : List Char) : Option Nat :=
    if digits.isEmpty || !digits.all Char.isDigit then none else some (ofDigits digits)
  match s with
  | '-' :: digits => (read digits).map fun n => -(n : Int)
  | '+' :: digits => (read digits).map fun n => (n : Int)
  | digits => (read digits).map fun n => (n : Int)

/-- A decimal without sign. -/
def read (s : List Char) : Option Decimal :=
  let whole := s.takeWhile Char.isDigit
  let (fraction, rest) :=
    match s.dropWhile Char.isDigit with
    | '.' :: rest => (rest.takeWhile Char.isDigit, rest.dropWhile Char.isDigit)
    | rest => ([], rest)
  let decimal (e : Int) : Decimal := ⟨ofDigits (whole ++ fraction), e - fraction.length⟩
  if whole.isEmpty && fraction.isEmpty then none
  else
    match rest with
    | [] => some (decimal 0)
    | c :: rest => if c = 'e' ∨ c = 'E' then (readExponent rest).map decimal else none

/-- The number nearest to a decimal with a sign. A decimal whose first digit stands beyond every
finite number, or below half of every positive one, is not computed. -/
def toBinary64 (negative : Bool) (d : Decimal) : Binary64 :=
  let order := (digitCount d.digits : Int) + d.exponent
  if d.digits = 0 ∨ order < -330 then .zero negative
  else if 310 < order then .infinity negative
  else .round negative (d.digits * 10 ^ d.exponent.toNat) (10 ^ (-d.exponent).toNat)

/-- The decimal without an exponent: its digits, padded with zeros, and a point where a fraction
follows that is not zero. -/
def text (d : Decimal) : String :=
  if 0 ≤ d.exponent then toString (d.digits * 10 ^ d.exponent.toNat)
  else
    let places := (-d.exponent).toNat
    let whole := d.digits / 10 ^ places
    let fraction := Nat.toDigits 10 (d.digits % 10 ^ places)
    let padded := List.replicate (places - fraction.length) '0' ++ fraction
    let shown := (padded.reverse.dropWhile (· == '0')).reverse
    if shown.isEmpty then toString whole
    else toString whole ++ "." ++ String.ofList shown

end Decimal

namespace Binary64

/-- The number that a text spells. -/
def read (s : String) : Except FloatFault Binary64 :=
  let unsigned (negative : Bool) (s : List Char) : Except FloatFault Binary64 :=
    match Decimal.read s with
    | some d => .ok (d.toBinary64 negative)
    | none =>
      let word := String.ofList (s.map Char.toLower)
      if word = "inf" ∨ word = "infinity" then .ok (infinity negative)
      else if word = "nan" then .ok (ofParts negative notANumber.magnitude)
      else .error .invalid
  match s.toList with
  | [] => .error .empty
  | '-' :: rest => unsigned true rest
  | '+' :: rest => unsigned false rest
  | rest => unsigned false rest

/-- The decimals that read back as a number: those between `low` and `high` quarters of its unit
in the last place, `2 ^ (exponent - 2)`, with the ends where its significand is even. -/
structure Interval where
  low : Nat
  middle : Nat
  high : Nat
  closed : Bool
  /-- A quarter of the unit in the last place, as a fraction. -/
  unit : Nat × Nat

/-- The interval of a finite number that is not zero. Just above a power of two the neighbour
below is half as far away as the one above. -/
def interval (x : Binary64) : Interval :=
  let m := x.significand
  let e := x.exponent - 2
  { low := if m = 2 ^ 52 then 4 * m - 1 else 4 * m - 2
    middle := 4 * m
    high := 4 * m + 2
    closed := m % 2 == 0
    unit := (2 ^ e.toNat, 2 ^ (-e).toNat) }

/-- The order of magnitude in tens: the least `k` with `num / den < 10 ^ k`. -/
def decimalOrder (num den : Nat) : Int :=
  if den ≤ num then digitCount (num / den)
  else 1 - (digitCount ((den + num - 1) / num - 1) : Int)

/-- The nearest multiple of `10 ^ grid` inside the interval; of two equally near the greater. -/
def Interval.nearestOn? (i : Interval) (grid : Int) : Option Decimal :=
  let a := i.unit.1 * 10 ^ (-grid).toNat
  let b := i.unit.2 * 10 ^ grid.toNat
  let below := i.middle * a / b
  let inside (digits : Nat) : Bool :=
    let scaled := digits * b
    if i.closed then i.low * a ≤ scaled && scaled ≤ i.high * a
    else i.low * a < scaled && scaled < i.high * a
  match inside below, inside (below + 1) with
  | true, true =>
    if 2 * (i.middle * a) < (2 * below + 1) * b then some ⟨below, grid⟩ else some ⟨below + 1, grid⟩
  | true, false => some ⟨below, grid⟩
  | false, true => some ⟨below + 1, grid⟩
  | false, false => none

/-- The fewest digits that read back as a finite number that is not zero. Seventeen digits always
do; the exact value stands behind them. -/
def shortest (x : Binary64) : Decimal :=
  let i := x.interval
  let order := decimalOrder (i.middle * i.unit.1) i.unit.2
  match (List.range 17).findSome? fun n => i.nearestOn? (order - (n + 1 : Nat)) with
  | some d => d
  | none =>
    let e := x.exponent
    ⟨x.significand * 2 ^ e.toNat * 5 ^ (-e).toNat, min e 0⟩

/-- A number as text. -/
def text (x : Binary64) : String :=
  if x.isNaN then "NaN"
  else
    let digits :=
      if !x.isFinite then "inf" else if x.isZero then "0" else x.shortest.text
    if x.negative then "-" ++ digits else digits

end Binary64

end Number
end MiniSql
