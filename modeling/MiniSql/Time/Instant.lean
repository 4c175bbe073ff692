/-
# Instants

An instant is a number of whole seconds since the start of 1970 and of nanoseconds on top, less than
two seconds of them. A leap second has the seconds of the second before it and a billion
nanoseconds more, so that it comes after that second and before the next. It belongs to the end of a
minute, where a clock shows it as the second 60. Inside a minute a clock shows it as the second that
follows, so that its text names another instant (`Instant.readBack`).

`text` writes an instant in universal time: `2024-03-01T10:20:30.500+00:00`. The fraction has
three, six or nine digits, as many as it needs, and none where it is zero. A year outside
0 to 9999 carries its sign.
-/

import MiniSql.Time.Calendar

namespace MiniSql
namespace Time

/-- The seconds of a day. -/
def secondsPerDay : Int := 86400

/-- The nanoseconds of a second. -/
abbrev nanosPerSecond : Nat := 1000000000

/-- A point in time. The nanoseconds are those of the second, and in a leap second of the second
before it too. -/
@[ext] structure Instant where
  seconds : Int
  nanos : Fin (2 * nanosPerSecond)
  deriving DecidableEq, Repr

/-- A date and a time of that day. -/
@[ext] structure Moment where
  date : Date
  hour : Nat
  minute : Nat
  second : Nat
  nanos : Fin nanosPerSecond
  deriving DecidableEq, Repr

/-- The moment exists. A minute has sixty seconds and may have a leap second. -/
def Moment.valid (m : Moment) : Bool :=
  m.date.valid && m.hour ≤ 23 && m.minute ≤ 59 && m.second ≤ 60

/-- The instant of a moment on clocks that run `offset` seconds ahead of universal time. -/
def Moment.instant (m : Moment) (offset : Int) : Instant :=
  let leap := m.second == 60
  let second := if leap then 59 else m.second
  { seconds := m.date.dayOf * secondsPerDay
      + ((m.hour * 3600 + m.minute * 60 + second : Nat) : Int) - offset
    nanos := if leap then ⟨nanosPerSecond + m.nanos, by omega⟩ else ⟨m.nanos, by omega⟩ }

namespace Instant

/-- The earlier instant is the one with fewer seconds, then the one with fewer nanoseconds. -/
def order (a b : Instant) : Ordering :=
  (compare a.seconds b.seconds).then (compare a.nanos.val b.nanos.val)

/-- What a clock of universal time shows at an instant. -/
def moment (t : Instant) : Moment :=
  let second := (t.seconds % secondsPerDay).toNat
  let leap := nanosPerSecond ≤ t.nanos
  { date := dateOf (t.seconds / secondsPerDay)
    hour := second / 3600
    minute := second / 60 % 60
    second := if leap then second % 60 + 1 else second % 60
    nanos :=
      if h : nanosPerSecond ≤ t.nanos then ⟨t.nanos - nanosPerSecond, by omega⟩
      else ⟨t.nanos, by omega⟩ }

/-- The instant that its text names. -/
def readBack (t : Instant) : Instant := t.moment.instant 0

end Instant

/-- A number in at least `width` digits. -/
def padded (width n : Nat) : String :=
  let digits := Nat.toDigits 10 n
  String.ofList (List.replicate (width - digits.length) '0' ++ digits)

/-- A year in four digits; outside 0 to 9999 with its sign. -/
def yearText (year : Int) : String :=
  if 0 ≤ year ∧ year ≤ 9999 then padded 4 year.toNat
  else (if year < 0 then "-" else "+") ++ padded 4 year.natAbs

/-- A fraction of a second. -/
def fractionText (nanos : Nat) : String :=
  if nanos = 0 then ""
  else if nanos % 1000000 = 0 then "." ++ padded 3 (nanos / 1000000)
  else if nanos % 1000 = 0 then "." ++ padded 6 (nanos / 1000)
  else "." ++ padded 9 nanos

/-- A moment of universal time as text. -/
def Moment.text (m : Moment) : String :=
  yearText m.date.year ++ "-" ++ padded 2 m.date.month ++ "-" ++ padded 2 m.date.day ++ "T"
    ++ padded 2 m.hour ++ ":" ++ padded 2 m.minute ++ ":" ++ padded 2 m.second
    ++ fractionText m.nanos ++ "+00:00"

/-- An instant as text. -/
def Instant.text (t : Instant) : String := t.moment.text

end Time
end MiniSql
