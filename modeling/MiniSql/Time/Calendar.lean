/-
# The calendar

Dates of the Gregorian calendar, extended to all years; the year before year 1 is year 0. Days are
counted from the first of January 1970, which is day 0. `dayOf` counts the days up to a date and
`dateOf` finds the date of a day.
-/

namespace MiniSql
namespace Time

-- A sum begins with the numeral, whatever algebra is imported beside.
attribute [local instance (high)] Zero.ofOfNat0

/-- A day of the calendar. -/
structure Date where
  year : Int
  month : Nat
  day : Nat
  deriving DecidableEq, Repr

/-- Every fourth year has a leap day, but of the centuries only every fourth. -/
def isLeap (year : Int) : Bool := year % 4 == 0 && (year % 100 != 0 || year % 400 == 0)

/-- The lengths of the months. -/
def monthLengths (year : Int) : List Nat :=
  [31, if isLeap year then 29 else 28, 31, 30, 31, 30, 31, 31, 30, 31, 30, 31]

/-- The first year that dates reach back to. -/
def firstYear : Int := -262143

/-- The last year that dates reach. -/
def lastYear : Int := 262142

/-- The date exists and lies in the range of dates. -/
def Date.valid (d : Date) : Bool :=
  firstYear ≤ d.year && d.year ≤ lastYear && 1 ≤ d.month && 1 ≤ d.day &&
    (monthLengths d.year)[d.month - 1]?.any (d.day ≤ ·)

/-- The days from the start of year 1 to the start of a year. -/
def daysBefore (year : Int) : Int :=
  365 * (year - 1) + (year - 1) / 4 - (year - 1) / 100 + (year - 1) / 400

/-- The days from the start of year 1 to the start of 1970. -/
def daysBeforeEpoch : Int := daysBefore 1970

/-- The days from the start of 1970 to a date. -/
def Date.dayOf (d : Date) : Int :=
  daysBefore d.year - daysBeforeEpoch + (((monthLengths d.year).take (d.month - 1)).sum : Nat)
    + d.day - 1

/-- The year in which the day lies that is `n` days after the start of year 1. A year has 146097
days in 400 on average; the guess from that is off by at most one. -/
def yearOf (n : Int) : Int :=
  let guess := 1 + 400 * n / 146097
  if n < daysBefore guess then guess - 1
  else if daysBefore (guess + 1) ≤ n then guess + 1
  else guess

/-- The month and the day in it of the `n`th day after the start of month `month`, given the
lengths of the months from there on. -/
def monthAndDay (month n : Nat) : List Nat → Nat × Nat
  | [] => (month, n + 1)
  | length :: lengths =>
    if n < length then (month, n + 1) else monthAndDay (month + 1) (n - length) lengths

/-- The date of a day counted from the start of 1970. -/
def dateOf (day : Int) : Date :=
  let n := day + daysBeforeEpoch
  let year := yearOf n
  let (month, day) := monthAndDay 1 (n - daysBefore year).toNat (monthLengths year)
  ⟨year, month, day⟩

end Time
end MiniSql
