/-
# Reading integers

An integer is written with an optional sign and at least one decimal digit. Where the type holds
no negative numbers a minus sign is a bad digit. The digits are read from the left, and the first
fault met is the one reported: a number that has already left its range is too large even if a
bad digit follows.
-/

namespace MiniSql
namespace Number

-- A power of numbers is the same function whatever algebra is imported beside.
attribute [instance (high)] instPowNat
attribute [default_instance high] instPowNat

/-- Why a text is no integer of its type. -/
inductive IntegerFault where
  | empty
  | badDigit
  | tooLarge
  | tooSmall
  deriving DecidableEq, Repr

/-- The fault in words. -/
def IntegerFault.message : IntegerFault → String
  | empty => "cannot parse integer from empty string"
  | badDigit => "invalid digit found in string"
  | tooLarge => "number too large to fit in target type"
  | tooSmall => "number too small to fit in target type"

/-- The value of a decimal digit. -/
def digitValue (c : Char) : Nat := c.toNat - '0'.toNat

/-- The number that the digits continue from `read`, at most `bound`. -/
def readDigits (bound : Nat) (beyond : IntegerFault) (read : Nat) :
    List Char → Except IntegerFault Nat
  | [] => .ok read
  | c :: rest =>
    if c.isDigit then
      let next := 10 * read + digitValue c
      if next ≤ bound then readDigits bound beyond next rest else .error beyond
    else .error .badDigit

/-- The largest number of 64 bits without sign. -/
def maxCount : Nat := 2 ^ 64 - 1

/-- A number of 64 bits without sign. -/
def readCount (s : String) : Except IntegerFault Nat :=
  match s.toList with
  | [] => .error .empty
  | ['+'] => .error .badDigit
  | '+' :: digits => readDigits maxCount .tooLarge 0 digits
  | digits => readDigits maxCount .tooLarge 0 digits

/-- A number of 64 bits with sign. -/
def readInteger (s : String) : Except IntegerFault Int64 :=
  match s.toList with
  | [] => .error .empty
  | ['+'] => .error .badDigit
  | ['-'] => .error .badDigit
  | '-' :: digits => do
    let n ← readDigits (2 ^ 63) .tooSmall 0 digits
    return Int64.ofInt (-n)
  | '+' :: digits => do
    let n ← readDigits (2 ^ 63 - 1) .tooLarge 0 digits
    return Int64.ofInt n
  | digits => do
    let n ← readDigits (2 ^ 63 - 1) .tooLarge 0 digits
    return Int64.ofInt n

end Number
end MiniSql
