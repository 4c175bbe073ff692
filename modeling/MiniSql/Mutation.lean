/-
# Changing a table

An `INSERT` lines its values up with the columns of the table, an `UPDATE` computes the changed
rows from the rows as they were, and a `DELETE` gathers the ids of its rows. Only then is the
relation changed, in one step.
-/

import MiniSql.Plan

namespace MiniSql
namespace Mutation

/-- A value of an `INSERT`. `DEFAULT` supplies nothing, and there is no row to take a column
from. -/
def slot (e : Expression) : Timed (Option Value) :=
  match e with
  | .default => return none
  | .field c => Timed.refuse (.schema (.columnInValues c))
  | e => do return some (← e.evaluate [] [])

/-- The values for the columns that are not autoincrement, with nothing for those that are. -/
def spread : List Column → List (Option Value) → List (Option Value)
  | [], _ => []
  | c :: columns, values =>
    if c.autoincrement then none :: spread columns values
    else values.head?.join :: spread columns values.tail

/-- Values in the order of the columns. There may be one for every column, or for every one that
is not autoincrement. -/
def alignAll (s : Schema) (values : List (Option Value)) : Except Error (List (Option Value)) :=
  let generated := s.columns.countP (·.autoincrement)
  if values.length = s.width then .ok values
  else if 0 < generated ∧ values.length + generated = s.width then .ok (spread s.columns values)
  else .error (.schema (.suppliedWidth s.name s.width values.length))

/-- Values put into the columns of the names before them, when those of `seen` have theirs. -/
def place (s : Schema) (row : List (Option Value)) (seen : List String) :
    List (String × Option Value) → Except Error (List (Option Value))
  | [] => .ok row
  | (name, v) :: rest =>
    if name ∈ seen then .error (.schema (.namedTwice name))
    else do
      let i ← s.columnIndex name
      place s (row.set i v) (name :: seen) rest

/-- The slots of a row from the values of a tuple, for the columns named or for all. -/
def align (s : Schema) (columns : List String) (values : List (Option Value)) :
    Except Error (List (Option Value)) :=
  if columns.isEmpty then alignAll s values
  else if columns.length ≠ values.length then
    .error (.schema (.namedWidth columns.length values.length))
  else place s (List.replicate s.width none) [] (columns.zip values)

/-- The rows of an `INSERT` with a slot for every column. -/
def slots (s : Schema) (columns : List String) (rows : List (List Expression)) :
    Timed (List (List (Option Value))) :=
  rows.mapM fun tuple => do
    let values ← tuple.mapM slot
    Timed.ofExcept (align s columns values)

/-- The relation with the rows of an `INSERT`. -/
def insert (r : Relation) (columns : List String) (rows : List (List Expression)) :
    Timed (Relation × Relation.Inserted) := do
  r.insert (← slots r.schema columns rows)

/-- The positions that an `UPDATE` assigns to, when those of `seen` are assigned already. -/
def targets (s : Schema) (seen : List Nat) :
    List (String × Expression) → Except Error (List (Nat × Expression))
  | [] => .ok []
  | (name, e) :: rest => do
    let i ← s.columnIndex name
    if i ∈ seen then .error (.schema (.assignedTwice name))
    else if s.columns[i]?.any (·.autoincrement) then .error (.constraint (.autoincrement name))
    else return (i, e) :: (← targets s (i :: seen) rest)

/-- The value that a column is assigned, from the row as it was. -/
def newValue (s : Schema) (row : Row) (i : Nat) (e : Expression) : Timed Value :=
  match e, s.columns[i]? with
  | .default, some c => do
    match ← c.defaultValue? with
    | some v => return v
    | none => Timed.refuse (.constraint (.noDefault c.name))
  | e, _ => e.evaluate s.labels row

/-- A row after assignments; each is computed from `row` and put into `changed`. -/
def assign (s : Schema) (row changed : Row) : List (Nat × Expression) → Timed Row
  | [] => return changed
  | (i, e) :: rest => do
    let v ← newValue s row i e
    assign s row (changed.set i v) rest

/-- The rows of which a predicate holds, changed. -/
def changes (s : Schema) (predicate : Expression) (assigned : List (Nat × Expression)) :
    List (Nat × Row) → Timed (List (Nat × Row))
  | [] => return []
  | (id, row) :: rest => do
    if ← predicate.holds s.labels row then
      let row ← assign s row row assigned
      return (id, row) :: (← changes s predicate assigned rest)
    else changes s predicate assigned rest

/-- The relation after an `UPDATE`, and how many rows it changed. -/
def update (r : Relation) (predicate : Expression) (assignments : List (String × Expression)) :
    Timed (Relation × Nat) := do
  let assigned ← Timed.ofExcept (targets r.schema [] assignments)
  r.update (← changes r.schema predicate assigned r.scan)

/-- The ids of the rows of which a predicate holds. -/
def matching (s : Schema) (predicate : Expression) : List (Nat × Row) → Timed (List Nat)
  | [] => return []
  | (id, row) :: rest => do
    let found ← predicate.holds s.labels row
    let ids ← matching s predicate rest
    return if found then id :: ids else ids

/-- The relation after a `DELETE`, and how many rows it deleted. -/
def delete (r : Relation) (predicate : Expression) : Timed (Relation × Nat) := do
  return r.delete (← matching r.schema predicate r.scan)

end Mutation
end MiniSql
