/-
# Running a query

The rows of a query are those of its tables after its steps. A query only reads: it is given the
tables and changes none. The sides of a join are read from left to right.
-/

import MiniSql.Query.Aggregate
import MiniSql.Query.Join
import MiniSql.Query.Projection
import MiniSql.Query.Sort

namespace MiniSql

/-- The rows of a table under their labels. -/
def Relation.rowset (r : Relation) : Rowset := ⟨r.schema.labels, r.scan.map (·.2)⟩

/-- The rows of a query over the tables that `table` gives. -/
def Query.run (table : String → Except Error Relation) : Query → Timed Rowset
  | scan name => do return (← Timed.ofExcept (table name)).rowset
  | join left right predicate outer => do
    let l ← left.run table
    let r ← right.run table
    l.join r predicate outer
  | filter source predicate => do (← source.run table).filter predicate
  | order source keys => do Timed.ofExcept ((← source.run table).sort keys)
  | offset source count => do return (← source.run table).drop count
  | limit source count => do return (← source.run table).take count
  | projection source items => do Timed.ofExcept ((← source.run table).project items)
  | aggregate source calls => do Timed.ofExcept ((← source.run table).aggregate calls)

end MiniSql
