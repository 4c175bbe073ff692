/-
# Running statements

A database is a catalog of tables and the options that it was made with. A statement is read,
planned with its arguments, granted the locks that it needs, and carried out; the first of these
steps that refuses it ends it. Its answer comes with the database that it leaves.

The rows of an `INSERT` that returns a column are stored before the column is looked up.
-/

import MiniSql.Grammar.Statement
import MiniSql.Mutation
import MiniSql.Options
import MiniSql.Plan.OfTree
import MiniSql.Query.Run

namespace MiniSql

/-- What a statement answers. -/
inductive Answer where
  | created (table : String)
  | dropped (table : String)
  | truncated (table : String)
  /-- How many rows were inserted, and the last number that an autoincrement column took. -/
  | inserted (count : Nat) (lastNumber : Option Int64)
  | rows (set : Rowset)
  | updated (count : Nat)
  | deleted (count : Nat)
  deriving DecidableEq, Repr

/-- The number of rows changed, or returned. -/
def Answer.count : Answer → Nat
  | created _ => 0
  | dropped _ => 0
  | truncated _ => 0
  | inserted n _ => n
  | rows set => set.rows.length
  | updated n => n
  | deleted n => n

/-- The answer of an `INSERT`: the values of the returned column, or how many rows there are. -/
def Answer.ofInsert (s : Schema) (returning : Option ColumnRef) (i : Relation.Inserted) :
    Except Error Answer :=
  match returning with
  | none => .ok (.inserted i.rows.length i.lastNumber)
  | some c => do
    let position ← c.resolve s.labels
    return .rows ⟨[c.name], i.rows.map fun row => [Relation.valueAt position row]⟩

/-- The catalog after a plan whose locks are granted, and the answer. -/
def Plan.carryOut (start : Int64) (c : Catalog) (p : Plan) :
    Timed (Catalog × Except Error Answer) := do
  let target (table : String) : Timed Relation := Timed.ofExcept (c.tableToWrite p.locks table)
  match p with
  | createTable schema ifNotExists =>
    let (c, _) ← Timed.ofExcept (c.create schema ifNotExists start)
    return (c, .ok (.created schema.name))
  | dropTable table ifExists =>
    let (c, _) ← Timed.ofExcept (c.drop table ifExists)
    return (c, .ok (.dropped table))
  | truncate table =>
    let r ← target table
    return (c.put table r.truncate.1, .ok (.truncated table))
  | insert table columns rows returning =>
    let r ← target table
    let (r', stored) ← Mutation.insert r columns rows
    return (c.put table r', Answer.ofInsert r.schema returning stored)
  | update table predicate assignments =>
    let (r, n) ← Mutation.update (← target table) predicate assignments
    return (c.put table r, .ok (.updated n))
  | delete table predicate =>
    let (r, n) ← Mutation.delete (← target table) predicate
    return (c.put table r, .ok (.deleted n))
  | query q =>
    let set ← q.run (c.table p.locks)
    return (c, .ok (.rows set))

/-- The catalog after a plan, and the answer. -/
def Plan.run (start : Int64) (c : Catalog) (p : Plan) : Timed (Catalog × Except Error Answer) := do
  Timed.ofExcept (c.grant p.locks)
  p.carryOut start c

/-- The plan of a statement with its arguments. -/
def Plan.ofText (sql : String) (arguments : List Value) (strict : Bool) : Except Error Plan :=
  match Grammar.parse sql with
  | .error fault => .error (.grammar fault)
  | .ok t => Plan.ofTrees [t] arguments strict

/-- Tables and options. -/
structure Database where
  options : Options
  catalog : Catalog

namespace Database

/-- A database without tables. -/
def new (options : Options) : Database := ⟨options, .empty⟩

/-- Runs a statement. -/
def execute (d : Database) (sql : String) (arguments : List Value) :
    StateM Time.Clock (Except Error Answer × Database) := do
  match Plan.ofText sql arguments d.options.strictParams with
  | .error e => return (.error e, d)
  | .ok plan =>
    match ← (plan.run d.options.autoincrementStart d.catalog).run with
    | .error e => return (.error e, d)
    | .ok (catalog, answer) => return (answer, { d with catalog := catalog })

end Database

end MiniSql
