/-
# Reading instants

Three forms are tried in turn:

1. the strict form, `2024-03-01T10:20:30.5+02:00`: every number has its full width, `T` may be a
   space, and an offset or `Z` is required;
2. a date and a time without offset, `2024-03-01 10:20:30.5`, in universal time;
3. a date, `2024-03-01`, for its first second.

In the second and the third form white space may stand before each number, and between the date
and the time there may be any amount of it. Numbers may be short, and a year with a sign may have
any number of digits. Of a fraction nine digits count.
-/

import MiniSql.Number.Decimal
import MiniSql.Text.Blank
import MiniSql.Time.Instant

namespace MiniSql
namespace Time
namespace Read

/-- At least `least` and at most `most` digits, as many as there are. -/
def digits (least most : Nat) (s : List Char) : Option (Nat × List Char) :=
  let taken := (s.take most).takeWhile Char.isDigit
  if taken.length < least then none
  else some (Number.Decimal.ofDigits taken, s.drop taken.length)

/-- This character and no other. -/
def literal (c : Char) : List Char → Option (List Char)
  | [] => none
  | c' :: rest => if c' = c then some rest else none

/-- A fraction of a second, if a point is ahead. It has at least one digit, and after the ninth
the digits count for nothing, so that it is less than a second. -/
def fraction (s : List Char) : Option (Fin nanosPerSecond × List Char) :=
  match s with
  | '.' :: rest => do
    let taken := (rest.take 9).takeWhile Char.isDigit
    if taken.isEmpty then none
    else
      let nanos := Number.Decimal.ofDigits taken * 10 ^ (9 - taken.length)
      some (Fin.ofNat _ nanos, (rest.drop taken.length).dropWhile Char.isDigit)
  | rest => some (0, rest)

/-- A date of full width. -/
def strictDate (s : List Char) : Option (Date × List Char) := do
  let (year, s) ← digits 4 4 s
  let (month, s) ← digits 2 2 (← literal '-' s)
  let (day, s) ← digits 2 2 (← literal '-' s)
  return (⟨year, month, day⟩, s)

/-- A time of full width on a date. -/
def strictTime (date : Date) (s : List Char) : Option (Moment × List Char) := do
  let (hour, s) ← digits 2 2 s
  let (minute, s) ← digits 2 2 (← literal ':' s)
  let (second, s) ← digits 2 2 (← literal ':' s)
  let (nanos, s) ← fraction s
  return (⟨date, hour, minute, second, nanos⟩, s)

/-- The seconds by which clocks run ahead of universal time: less than a day. The minus sign may
be the mathematical one. -/
def offset (s : List Char) : Option (Int × List Char) :=
  match s with
  | [] => none
  | c :: rest =>
    if c = 'Z' ∨ c = 'z' then some (0, rest)
    else do
      let sign : Int ← if c = '+' then some 1 else if c = '-' ∨ c = '\u2212' then some (-1) else none
      let (hours, s) ← digits 2 2 rest
      let (minutes, s) ← digits 2 2 (← literal ':' s)
      if 23 < hours ∨ 59 < minutes then none
      else some (sign * ((hours * 3600 + minutes * 60 : Nat) : Int), s)

/-- The first form. -/
def strict (s : List Char) : Option Instant := do
  let (date, s) ← strictDate s
  match s with
  | c :: s =>
    if c = 'T' ∨ c = 't' ∨ c = ' ' then
      let (moment, s) ← strictTime date s
      let (ahead, s) ← offset s
      if moment.valid ∧ s.isEmpty then some (moment.instant ahead) else none
    else none
  | [] => none

/-- A year of up to four digits, or of any number of them behind a sign. -/
def looseYear (s : List Char) : Option (Int × List Char) :=
  match Text.skipBlank s with
  | '-' :: rest => (digits 1 rest.length rest).map fun r => (-(r.1 : Int), r.2)
  | '+' :: rest => (digits 1 rest.length rest).map fun r => ((r.1 : Int), r.2)
  | rest => (digits 1 4 rest).map fun r => ((r.1 : Int), r.2)

/-- One or two digits, and white space before them. -/
def short (s : List Char) : Option (Nat × List Char) := digits 1 2 (Text.skipBlank s)

/-- A date of the looser forms. -/
def looseDate (s : List Char) : Option (Date × List Char) := do
  let (year, s) ← looseYear s
  let (month, s) ← short (← literal '-' s)
  let (day, s) ← short (← literal '-' s)
  return (⟨year, month, day⟩, s)

/-- A time of the second form on a date. -/
def looseTime (date : Date) (s : List Char) : Option (Moment × List Char) := do
  let (hour, s) ← short s
  let (minute, s) ← short (← literal ':' s)
  let (second, s) ← short (← literal ':' s)
  let (nanos, s) ← fraction s
  return (⟨date, hour, minute, second, nanos⟩, s)

/-- The second form. -/
def dateAndTime (s : List Char) : Option Instant := do
  let (date, s) ← looseDate s
  let (moment, s) ← looseTime date (Text.skipBlank s)
  if moment.valid ∧ s.isEmpty then some (moment.instant 0) else none

/-- The third form. -/
def dateOnly (s : List Char) : Option Instant := do
  let (date, s) ← looseDate s
  if date.valid ∧ s.isEmpty then some (Moment.instant ⟨date, 0, 0, 0, 0⟩ 0) else none

end Read

/-- The instant that a text names. -/
def Instant.ofText? (text : String) : Option Instant :=
  let s := text.toList
  Read.strict s <|> Read.dateAndTime s <|> Read.dateOnly s

end Time
end MiniSql
