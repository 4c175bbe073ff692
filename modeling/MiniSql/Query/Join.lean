/-
# Joining rows

A join sets every row on the left beside every row on the right and keeps the pairs of which its
predicate holds: for each row on the left in turn, in the order of the rows on the right. An outer
join also keeps a row on the left that finds no partner, with `NULL` for the columns on the right.
-/

import MiniSql.Query.Rowset

namespace MiniSql
namespace Rowset

/-- The predicate holds of a row, or there is none. -/
def admits (predicate : Option Expression) (labels : List String) (row : Row) : Timed Bool :=
  match predicate with
  | some p => p.holds labels row
  | none => return true

/-- A row on the left beside each row on the right, as far as the test holds. -/
def pair (test : Row → Timed Bool) (left : Row) (right : List Row) : Timed (List Row) :=
  keep test (right.map (left ++ ·))

/-- A row on the left that stands alone, with `padding` in place of the right. -/
def unpaired (outer : Bool) (padding left : Row) (found : List Row) : List Row :=
  if outer && found.isEmpty then [left ++ padding] else found

/-- The pairs of the rows on the left, one after the other. -/
def pairAll (test : Row → Timed Bool) (outer : Bool) (padding : Row) (right : List Row) :
    List Row → Timed (List Row)
  | [] => return []
  | left :: lefts => do
    let found ← pair test left right
    let rest ← pairAll test outer padding right lefts
    return unpaired outer padding left found ++ rest

/-- The join of two sets of rows. -/
def join (left right : Rowset) (predicate : Option Expression) (outer : Bool) : Timed Rowset := do
  let columns := left.columns ++ right.columns
  let padding := List.replicate right.columns.length Value.null
  let rows ← pairAll (admits predicate columns) outer padding right.rows left.rows
  return ⟨columns, rows⟩

end Rowset
end MiniSql
