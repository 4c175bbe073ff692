/-
# Relations

A relation is a schema with the rows of a table. Each row has an id, which tells where it stands:
ids are given out in order and never again, so a pass over the rows meets them in the order in
which they were inserted. Autoincrement columns draw their numbers from a counter of the table
that only grows.

Rows are kept as records: an insert and an update encode them, a pass decodes them, and primary keys
are told apart by their bytes. What an insert answers with has not been through this.

An insert, an update and a delete each give the relation that they leave. One that is refused
gives none, so it changes nothing.
-/

import MiniSql.Schema
import MiniSql.Store.Record
import MiniSql.Store.SortedMap
import MiniSql.Value.Coerce

namespace MiniSql

/-- The rows of a table. -/
structure Relation where
  schema : Schema
  rows : SortedMap Nat Record
  /-- The id of the next row. -/
  nextId : Nat
  /-- The next number of the autoincrement columns. -/
  nextNumber : Int64

namespace Relation

/-- A table without rows. -/
def new (schema : Schema) (start : Int64) : Relation := ⟨schema, .empty, 0, start⟩

/-- The rows with their ids, in order. -/
def scan (r : Relation) : List (Nat × Row) := (r.rows.map Record.decode).entries

/-- The number of rows. -/
def size (r : Relation) : Nat := r.rows.size

/-- A value as it is stored in a column. -/
def prepareValue (c : Column) (v : Value) : Except Error Value :=
  match v.coerce c.type with
  | .error _ => .error (.schema (.unfit c.name c.type))
  | .ok w => if w.isNull && !c.nullable then .error (.constraint (.notNull c.name)) else .ok w

/-- The values of a row as they are stored in the columns. -/
def prepareValues : List Column → Row → Except Error Row
  | c :: columns, v :: row => do
    let w ← prepareValue c v
    return w :: (← prepareValues columns row)
  | _, _ => .ok []

/-- A row as it is stored. -/
def prepare (s : Schema) (row : Row) : Except Error Row :=
  if row.length ≠ s.width then .error (.schema (.rowWidth s.name s.width row.length))
  else prepareValues s.columns row

/-- The first value whose bytes are in `seen` or those of a value before. -/
def firstRepeated? (seen : List Code) : List Value → Option Value
  | [] => none
  | v :: vs => if v.encode ∈ seen then some v else firstRepeated? (v.encode :: seen) vs

/-- The value that a row has in the column at a position. -/
def valueAt (i : Nat) (row : Row) : Value := row[i]?.getD .null

/-- Refuses rows whose primary keys repeat each other or those of the rows already stored, apart
from the rows of the ids `replaced`. -/
def checkUnique (r : Relation) (rows : List Row) (replaced : List Nat) : Except Error Unit :=
  match r.schema.primaryKey? with
  | none => .ok ()
  | some key =>
    let kept := r.scan.filter fun e => e.1 ∉ replaced
    let seen := kept.map fun e => (valueAt key e.2).encode
    match firstRepeated? seen (rows.map (valueAt key)) with
    | none => .ok ()
    | some v =>
      let column := (r.schema.columns[key]?.map (·.name)).getD ""
      .error (.constraint (.duplicateKey v r.schema.name column))

/-- The numbers that an insert hands out: the next one, and the last one handed out. -/
structure Numbering where
  next : Int64
  last : Option Int64
  deriving DecidableEq, Repr

/-- The value of a column for which a row supplies `slot`, nothing where it is `none`. -/
def complete (c : Column) (slot : Option Value) (n : Numbering) : Timed (Value × Numbering) := do
  if c.autoincrement then
    match slot with
    | none | some .null => return (.integer n.next, ⟨n.next + 1, some n.next⟩)
    | some _ => Timed.refuse (.constraint (.autoincrement c.name))
  else
    match slot with
    | some v => return (v, n)
    | none =>
      match ← c.defaultValue? with
      | some v => return (v, n)
      | none => Timed.refuse (.constraint (.notNull c.name))

/-- The values of a row, column by column. -/
def completeAll : List Column → List (Option Value) → Numbering → Timed (Row × Numbering)
  | c :: columns, slot :: slots, n => do
    let (v, n) ← complete c slot n
    let (row, n) ← completeAll columns slots n
    return (v :: row, n)
  | _, _, n => return ([], n)

/-- A row to insert as it is stored. -/
def completeRow (s : Schema) (slots : List (Option Value)) (n : Numbering) :
    Timed (Row × Numbering) := do
  if slots.length ≠ s.width then
    Timed.refuse (.schema (.suppliedWidth s.name s.width slots.length))
  else
    let (row, n) ← completeAll s.columns slots n
    return (← Timed.ofExcept (prepare s row), n)

/-- The rows to insert as they are stored, one after the other. -/
def completeRows (s : Schema) : List (List (Option Value)) → Numbering →
    Timed (List Row × Numbering)
  | [], n => return ([], n)
  | slots :: rest, n => do
    let (row, n) ← completeRow s slots n
    let (rows, n) ← completeRows s rest n
    return (row :: rows, n)

/-- The relation with a row behind all others. -/
def push (r : Relation) (row : Row) : Relation :=
  { r with rows := r.rows.insert r.nextId (.encode row), nextId := r.nextId + 1 }

/-- What an insert answers with. -/
structure Inserted where
  /-- The rows, before they are encoded. -/
  rows : List Row
  /-- The last number that an autoincrement column took. -/
  lastNumber : Option Int64
  deriving DecidableEq, Repr

/-- Inserts rows. Each has a slot for every column, `none` where nothing is supplied. -/
def insert (r : Relation) (slots : List (List (Option Value))) : Timed (Relation × Inserted) := do
  let (rows, n) ← completeRows r.schema slots ⟨r.nextNumber, none⟩
  Timed.ofExcept (r.checkUnique rows [])
  return ({ rows.foldl push r with nextNumber := n.next }, ⟨rows, n.last⟩)

/-- A row with the current time in every column that an update stamps. -/
def stamp : List Column → Row → Timed Row
  | c :: columns, v :: row => do
    let w ← if c.onUpdate then .timestamp <$> Timed.now else pure v
    return w :: (← stamp columns row)
  | _, _ => return []

/-- A changed row as it is stored. -/
def change (r : Relation) (id : Nat) (row : Row) : Timed (Nat × Row) := do
  if r.rows.contains id then
    let row ← Timed.ofExcept (prepare r.schema row)
    return (id, ← stamp r.schema.columns row)
  else Timed.refuse (.internal (.rowVanished id r.schema.name))

/-- The relation with a row under an id. -/
def put (r : Relation) (e : Nat × Row) : Relation :=
  { r with rows := r.rows.insert e.1 (.encode e.2) }

/-- Replaces rows by their ids, and tells how many. -/
def update (r : Relation) (changes : List (Nat × Row)) : Timed (Relation × Nat) := do
  let changed ← changes.mapM fun e => r.change e.1 e.2
  Timed.ofExcept (r.checkUnique (changed.map (·.2)) (changed.map (·.1)))
  return (changed.foldl put r, changed.length)

/-- Deletes rows by their ids, and tells how many there were. -/
def delete (r : Relation) : List Nat → Relation × Nat
  | [] => (r, 0)
  | id :: ids =>
    if r.rows.contains id then
      let (r, n) := delete { r with rows := r.rows.erase id } ids
      (r, n + 1)
    else delete r ids

/-- Deletes all rows, and tells how many there were. The counter goes on. -/
def truncate (r : Relation) : Relation × Nat := ({ r with rows := .empty }, r.size)

end Relation

end MiniSql
