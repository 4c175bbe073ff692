/-
# Values

A cell of a table holds a value of one of five types, or `NULL`, which has no type. Equality of
values is identity: two floating point numbers are equal here when their bits are, so that the two
zeros differ.
-/

import MiniSql.Number.Decimal
import MiniSql.Time.Instant

namespace MiniSql

/-- The types of columns. -/
inductive DataType where
  | boolean
  | integer
  | float
  | text
  | timestamp
  deriving DecidableEq, Repr

/-- The name of a type. -/
def DataType.name : DataType → String
  | boolean => "BOOLEAN"
  | integer => "INTEGER"
  | float => "FLOAT"
  | text => "TEXT"
  | timestamp => "TIMESTAMP"

/-- A value. -/
inductive Value where
  | null
  | boolean (b : Bool)
  | integer (i : Int64)
  | float (x : Number.Binary64)
  | text (s : String)
  | timestamp (t : Time.Instant)
  deriving DecidableEq, Repr

/-- A row has one value for each column. -/
abbrev Row : Type := List Value

namespace Value

/-- The type of a value; `NULL` has none. -/
def type? : Value → Option DataType
  | null => none
  | boolean _ => some .boolean
  | integer _ => some .integer
  | float _ => some .float
  | text _ => some .text
  | timestamp _ => some .timestamp

def isNull : Value → Bool
  | null => true
  | _ => false

/-- Whether a value used as a predicate holds: not if it is `NULL`, false, a zero or empty. -/
def isTruthy : Value → Bool
  | null => false
  | boolean b => b
  | integer i => i != 0
  | float x => !x.isZero
  | text s => s != ""
  | timestamp _ => true

/-- The value as text. -/
def shown : Value → String
  | null => "NULL"
  | boolean true => "TRUE"
  | boolean false => "FALSE"
  | integer i => toString i.toInt
  | float x => x.text
  | text s => s
  | timestamp t => t.text

/-- The test for NULL says so. -/
theorem isNull_iff {v : Value} : v.isNull = true ↔ v = null := by cases v <;> simp [isNull]

/-- Only NULL has no type. -/
theorem type?_eq_none_iff {v : Value} : v.type? = none ↔ v = null := by cases v <;> simp [type?]

end Value

end MiniSql
