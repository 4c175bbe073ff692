/-
# Sets of rows

The rows that a step of a query works on, with the labels of their columns. Every row has one value
for each column.
-/

import MiniSql.Plan

namespace MiniSql

/-- Rows with the names of their columns. -/
structure Rowset where
  columns : List String
  rows : List Row
  deriving DecidableEq, Repr

namespace Rowset

/-- The values in the column at a position. -/
def column (s : Rowset) (i : Nat) : List Value := s.rows.map (Relation.valueAt i)

/-- The rows for which a test holds, in order. -/
def keep (test : Row → Timed Bool) : List Row → Timed (List Row)
  | [] => return []
  | row :: rows => do
    let kept ← test row
    let rest ← keep test rows
    return if kept then row :: rest else rest

/-- The rows of which a predicate holds. -/
def filter (s : Rowset) (predicate : Expression) : Timed Rowset := do
  return { s with rows := ← keep (predicate.holds s.columns) s.rows }

/-- The rows from the one after the first `count` on. -/
def drop (s : Rowset) (count : Nat) : Rowset := { s with rows := s.rows.drop count }

/-- The first `count` rows. -/
def take (s : Rowset) (count : Nat) : Rowset := { s with rows := s.rows.take count }

end Rowset

end MiniSql
