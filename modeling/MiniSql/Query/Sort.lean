/-
# Sorting rows

Rows are compared key by key; the first key on which they differ decides. The sort is stable: rows
that agree on every key keep their order.
-/

import MiniSql.Query.Rowset

namespace MiniSql
namespace Rowset

/-- The order of two rows by keys: positions of columns with their directions. -/
def compareRows (keys : List (Nat × Direction)) (a b : Row) : Ordering :=
  match keys with
  | [] => .eq
  | (i, direction) :: keys =>
    let o := (Relation.valueAt i a).sortOrder (Relation.valueAt i b)
    (match direction with
      | .ascending => o
      | .descending => o.swap).then (compareRows keys a b)

/-- The positions of the columns to sort by. -/
def resolveKeys (labels : List String) (keys : List (ColumnRef × Direction)) :
    Except Error (List (Nat × Direction)) :=
  keys.mapM fun key => do return (← key.1.resolve labels, key.2)

/-- The rows in order. -/
def sort (s : Rowset) (keys : List (ColumnRef × Direction)) : Except Error Rowset := do
  let keys ← resolveKeys s.columns keys
  return { s with rows := s.rows.mergeSort fun a b => compareRows keys a b != .gt }

end Rowset
end MiniSql
