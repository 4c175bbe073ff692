/-
# Table schemas

A schema names a table and its columns. A column has a type and may take a value by itself: a
default where an `INSERT` gives none, the next number of the table where it is autoincrement, and
the current time of an `UPDATE` where it is marked so.

`validate` says which schemas a table can have: at least one column, no name twice, at most one
primary key, and modifiers that suit the types.
-/

import MiniSql.Timed

namespace MiniSql

/-- What a column takes where an `INSERT` supplies nothing. -/
inductive Default where
  | value (v : Value)
  | now
  deriving DecidableEq, Repr

/-- A column of a table. -/
structure Column where
  name : String
  type : DataType
  nullable : Bool
  autoincrement : Bool
  primaryKey : Bool
  default : Option Default
  /-- Every `UPDATE` of a row stamps the column with the current time. -/
  onUpdate : Bool
  deriving DecidableEq, Repr

/-- A column that may be `NULL` and has no modifiers. -/
def Column.plain (name : String) (type : DataType) : Column :=
  ⟨name, type, true, false, false, none, false⟩

/-- What the column takes where nothing is supplied; nothing if it must not be `NULL` and has no
default. -/
def Column.defaultValue? (c : Column) : Timed (Option Value) := do
  match c.default with
  | some (.value v) => return some v
  | some .now => return some (.timestamp (← Timed.now))
  | none => return if c.nullable then some .null else none

/-- A table's name and columns. -/
structure Schema where
  name : String
  columns : List Column
  deriving DecidableEq, Repr

namespace Schema

/-- What is wrong with a column by itself, the first thing only. -/
def columnFault? (c : Column) : Option SchemaError :=
  if c.autoincrement && c.type != .integer then some (.autoincrementType c.name)
  else if c.onUpdate && c.type != .timestamp then some (.onUpdateType c.name)
  else
    match c.default with
    | some .now => if c.type = .timestamp then none else some (.defaultNowType c.name)
    | some (.value .null) => if c.nullable then none else some (.nullDefault c.name)
    | _ => none

/-- What is wrong with the columns, when columns of the names `seen` stand before them. -/
def columnsFault? (table : String) (seen : List String) : List Column → Option SchemaError
  | [] => none
  | c :: columns =>
    if c.name ∈ seen then some (.duplicateColumn c.name table)
    else
      match columnFault? c with
      | some e => some e
      | none => columnsFault? table (c.name :: seen) columns

/-- What is wrong with a schema, the first thing only. -/
def fault? (s : Schema) : Option SchemaError :=
  if s.columns.isEmpty then some (.noColumns s.name)
  else
    match columnsFault? s.name [] s.columns with
    | some e => some e
    | none =>
      if 1 < s.columns.countP (·.primaryKey) then some (.manyPrimaryKeys s.name) else none

/-- Refuses a schema that no table can have. -/
def validate (s : Schema) : Except Error Unit :=
  match s.fault? with
  | some e => .error (.schema e)
  | none => .ok ()

/-- The position of the column of a name. -/
def columnIndex (s : Schema) (name : String) : Except Error Nat :=
  match s.columns.findIdx? fun c => c.name == name with
  | some i => .ok i
  | none => .error (.schema (.columnNotFound name s.name))

/-- The position of the primary key, if there is one. -/
def primaryKey? (s : Schema) : Option Nat := s.columns.findIdx? (·.primaryKey)

/-- The labels of the columns. -/
def labels (s : Schema) : List String := s.columns.map fun c => label s.name c.name

/-- The number of columns. -/
def width (s : Schema) : Nat := s.columns.length

/-- There is a label for each column. -/
@[simp] theorem length_labels (s : Schema) : s.labels.length = s.width := by simp [labels, width]

end Schema

end MiniSql
