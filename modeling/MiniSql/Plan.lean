/-
# Plans

A plan is what a statement does, with its arguments in place. A query is built from the scans of
tables, step by step; each step works on the rows of its source. The other plans change one table
or the catalog.
-/

import MiniSql.Plan.Expression
import MiniSql.Store.Catalog

namespace MiniSql

/-- Which way a column is sorted. -/
inductive Direction where
  | ascending
  | descending
  deriving DecidableEq, Repr

/-- What a query shows: all columns, all columns of one table, or one column. -/
inductive SelectItem where
  | all
  | allOf (table : String)
  | column (column : ColumnRef)
  deriving DecidableEq, Repr

/-- Functions over all rows. -/
inductive Aggregate where
  | count
  | min
  | max
  | sum
  | avg
  deriving DecidableEq, Repr

/-- The name of a function. -/
def Aggregate.name : Aggregate → String
  | count => "count"
  | min => "min"
  | max => "max"
  | sum => "sum"
  | avg => "avg"

/-- A call of a function for a column; for the rows themselves where there is no column. -/
structure AggregateCall where
  function : Aggregate
  argument : Option ColumnRef
  deriving DecidableEq, Repr

/-- The name of the column that a call gives. -/
def AggregateCall.text (c : AggregateCall) : String :=
  match c.argument with
  | some column => c.function.name ++ "(" ++ column.name ++ ")"
  | none => c.function.name ++ "(*)"

/-- Where the rows of a query come from and what is done with them. -/
inductive Query where
  | scan (table : String)
  /-- Every row of `left` with every row of `right`, as far as the predicate holds. With `outer` a
  row of `left` that meets none is kept by itself. -/
  | join (left right : Query) (predicate : Option Expression) (outer : Bool)
  | filter (source : Query) (predicate : Expression)
  | order (source : Query) (keys : List (ColumnRef × Direction))
  | offset (source : Query) (count : Nat)
  | limit (source : Query) (count : Nat)
  | projection (source : Query) (items : List SelectItem)
  | aggregate (source : Query) (calls : List AggregateCall)
  deriving DecidableEq, Repr

/-- What a statement does. -/
inductive Plan where
  | createTable (schema : Schema) (ifNotExists : Bool)
  | dropTable (table : String) (ifExists : Bool)
  | truncate (table : String)
  | insert (table : String) (columns : List String) (rows : List (List Expression))
      (returning : Option ColumnRef)
  | update (table : String) (predicate : Expression) (assignments : List (String × Expression))
  | delete (table : String) (predicate : Expression)
  | query (q : Query)
  deriving DecidableEq, Repr

/-- The tables that a query scans, from left to right. -/
def Query.tables : Query → List String
  | scan table => [table]
  | join left right _ _ => left.tables ++ right.tables
  | filter source _ => source.tables
  | order source _ => source.tables
  | offset source _ => source.tables
  | limit source _ => source.tables
  | projection source _ => source.tables
  | aggregate source _ => source.tables

/-- The locks that a plan needs: the tables of a query to read, and the table of any other
statement to write. Creating and dropping need none. -/
def Plan.locks : Plan → LockRequest
  | createTable _ _ => .empty
  | dropTable _ _ => .empty
  | truncate table => LockRequest.write .empty table
  | insert table _ _ _ => LockRequest.write .empty table
  | update table _ _ => LockRequest.write .empty table
  | delete table _ => LockRequest.write .empty table
  | query q => q.tables.foldl LockRequest.read .empty

end MiniSql
