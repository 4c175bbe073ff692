/-
# Cursors

A cursor walks over the rows of a query. It stands before the first row until it is moved. The
values of its row are read into a destination of a type, which takes only some values: an integer
goes into an integer, if it fits, and into a floating point number, and every other value into a
destination of its own type. Only an optional destination takes `NULL`.
-/

import MiniSql.Database

namespace MiniSql

/-- The types of destinations. -/
inductive Target where
  | integer
  /-- An integer of 32 bits. -/
  | shortInteger
  | float
  | boolean
  | text
  | timestamp
  /-- Any value, as it is. -/
  | any
  deriving DecidableEq, Repr

/-- The name of a destination's type. -/
def Target.name : Target → String
  | integer => "i64"
  | shortInteger => "i32"
  | float => "f64"
  | boolean => "bool"
  | text => "String"
  | timestamp => "DateTime<Utc>"
  | any => "Value"

/-- The value that a destination of this type takes, if it takes it. -/
def Target.take? : Target → Value → Option Value
  | integer, .integer i => some (.integer i)
  | shortInteger, .integer i =>
    if -(2 ^ 31) ≤ i.toInt ∧ i.toInt < 2 ^ 31 then some (.integer i) else none
  | float, .float x => some (.float x)
  | float, .integer i => some (.float (Value.nearest i))
  | boolean, .boolean b => some (.boolean b)
  | text, .text s => some (.text s)
  | timestamp, .timestamp t => some (.timestamp t)
  | any, v => some v
  | _, _ => none

/-- Where a value goes. -/
structure Destination where
  target : Target
  optional : Bool
  deriving DecidableEq, Repr

/-- Reads a value into a destination. -/
def Destination.read (d : Destination) (v : Value) : Except Error Value :=
  if d.optional && v.isNull then .ok .null
  else
    match d.target.take? v with
    | some w => .ok w
    | none => .error (.parameter (.mismatch v d.target.name))

/-- The rows of a query on the way through them. -/
structure Cursor where
  columns : List String
  current : Option Row
  ahead : List Row

namespace Cursor

/-- A cursor before the first of some rows. -/
def ofRowset (s : Rowset) : Cursor := ⟨s.columns, none, s.rows⟩

/-- The rows of an answer; an answer without rows gives none. -/
def ofAnswer : Answer → Cursor
  | .rows set => ofRowset set
  | _ => ⟨[], none, []⟩

/-- Moves to the next row, and tells whether there is one. -/
def next (c : Cursor) : Cursor × Bool :=
  match c.ahead with
  | [] => ({ c with current := none }, false)
  | row :: rows => ({ c with current := some row, ahead := rows }, true)

/-- The row that the cursor stands on. -/
def row (c : Cursor) : Except Error Row :=
  match c.current with
  | some row => .ok row
  | none => .error (.parameter .noCurrentRow)

/-- Reads the value of one column. -/
def get (c : Cursor) (index : Nat) (d : Destination) : Except Error Value := do
  let row ← c.row
  match row[index]? with
  | some v => d.read v
  | none => .error (.parameter (.columnIndex index row.length))

/-- Reads the values of a row, as many as there are destinations; all of them as they are if
there are no destinations. -/
def readRow (destinations : List Destination) (row : Row) : Except Error Row :=
  if destinations.isEmpty then .ok row
  else if row.length ≠ destinations.length then
    .error (.parameter (.destinations row.length destinations.length))
  else (destinations.zip row).mapM fun e => e.1.read e.2

/-- Reads the values of the row that the cursor stands on. -/
def scan (c : Cursor) (destinations : List Destination) : Except Error Row := do
  readRow destinations (← c.row)

end Cursor

end MiniSql
