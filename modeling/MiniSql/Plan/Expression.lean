/-
# Expressions

An expression gives a value for a row whose values carry labels. It may read the clock, once for
every time that it asks for the current time.

`NULL` is neither equal nor unequal to anything: a comparison whose values do not compare gives
`NULL`. A connective looks at its right side only where the left side does not decide.
-/

import MiniSql.Reference.Resolve
import MiniSql.Timed
import MiniSql.Value.Order

namespace MiniSql

/-- The signs of comparison. -/
inductive Comparison where
  | equal
  | notEqual
  | less
  | lessEqual
  | greater
  | greaterEqual
  deriving DecidableEq, Repr

/-- The sign holds of two values that compare like this. -/
def Comparison.holds : Comparison → Ordering → Bool
  | equal, o => o == .eq
  | notEqual, o => o != .eq
  | less, o => o == .lt
  | lessEqual, o => o != .gt
  | greater, o => o == .gt
  | greaterEqual, o => o != .lt

/-- An expression over the columns of a row. -/
inductive Expression where
  | constant (v : Value)
  | field (column : ColumnRef)
  | currentTime
  /-- The default of the column that the value is for. It has no value by itself. -/
  | default
  | compare (sign : Comparison) (left right : Expression)
  /-- The operand is `NULL`, or with `negated` is not. -/
  | isNull (operand : Expression) (negated : Bool)
  | and (left right : Expression)
  | or (left right : Expression)
  deriving DecidableEq, Repr

namespace Expression

/-- The truth value that a comparison gives, or `NULL`. -/
def compared (sign : Comparison) (a b : Value) : Value :=
  match a.compare? b with
  | some o => .boolean (sign.holds o)
  | none => .null

/-- The value of a column in a row. -/
def fieldValue (labels : List String) (row : Row) (c : ColumnRef) : Except Error Value := do
  let i ← c.resolve labels
  match row[i]? with
  | some v => return v
  | none => .error (.internal (.noValue c))

/-- The value of an expression for a row. -/
def evaluate (labels : List String) (row : Row) : Expression → Timed Value
  | constant v => return v
  | field c => Timed.ofExcept (fieldValue labels row c)
  | currentTime => return .timestamp (← Timed.now)
  | default => Timed.refuse (.schema .defaultInExpression)
  | compare sign left right => do
    let a ← evaluate labels row left
    let b ← evaluate labels row right
    return compared sign a b
  | isNull operand negated => do
    let v ← evaluate labels row operand
    return .boolean (v.isNull != negated)
  | and left right => do
    let a ← evaluate labels row left
    if a.isTruthy then
      let b ← evaluate labels row right
      return .boolean b.isTruthy
    else return .boolean false
  | or left right => do
    let a ← evaluate labels row left
    if a.isTruthy then return .boolean true
    else
      let b ← evaluate labels row right
      return .boolean b.isTruthy

/-- Whether the expression holds of a row. -/
def holds (e : Expression) (labels : List String) (row : Row) : Timed Bool := do
  return (← e.evaluate labels row).isTruthy

end Expression

end MiniSql
