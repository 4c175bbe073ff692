/-
# References to columns

While a query runs, each column carries a label: the name of its table, a full stop and its own
name. A reference with a table matches the one label that spells it; a reference without one
matches every label that ends in a full stop and its name.
-/

namespace MiniSql

/-- A column's name, with its table where the statement gives one. -/
structure ColumnRef where
  table : Option String
  name : String
  deriving DecidableEq, Repr

/-- A label: `table.column`. -/
def label (table column : String) : String := table ++ "." ++ column

namespace ColumnRef

/-- The reference as it is written. -/
def text (c : ColumnRef) : String :=
  match c.table with
  | some table => label table c.name
  | none => c.name

/-- The reference may mean the column with this label. -/
def covers (c : ColumnRef) (l : String) : Bool :=
  match c.table with
  | some table => l == label table c.name
  | none => ('.' :: c.name.toList).isSuffixOf l.toList

end ColumnRef

end MiniSql
