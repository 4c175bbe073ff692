/-
# The catalog

The catalog holds the tables of a database under their names. A statement asks for locks on the
tables that it uses before it runs: for reading, or for writing too. It is granted all of them or
none: the first name in order that has no table refuses the request. A granted request is then the
key to the tables.
-/

import MiniSql.Store.Relation

namespace MiniSql

/-- What a statement does with a table. -/
inductive LockMode where
  | read
  | write
  deriving DecidableEq, Repr

/-- The tables that a statement uses. -/
abbrev LockRequest : Type := SortedMap String LockMode

namespace LockRequest

/-- Asks for a table to read. A table that is also written stays locked for writing. -/
def read (q : LockRequest) (table : String) : LockRequest :=
  if q.contains table then q else q.insert table .read

/-- Asks for a table to write. -/
def write (q : LockRequest) (table : String) : LockRequest := q.insert table .write

end LockRequest

/-- The tables of a database. -/
structure Catalog where
  tables : SortedMap String Relation

namespace Catalog

/-- No tables. -/
def empty : Catalog := ⟨.empty⟩

/-- There is a table of this name. -/
def has (c : Catalog) (name : String) : Bool := c.tables.contains name

/-- The names of the tables, in order. -/
def names (c : Catalog) : List String := c.tables.keys

/-- The catalog with a table under a name. -/
def put (c : Catalog) (name : String) (r : Relation) : Catalog := ⟨c.tables.insert name r⟩

/-- Creates a table whose counter begins at `start`, and tells whether it did: an existing one may
be kept. -/
def create (c : Catalog) (schema : Schema) (ifNotExists : Bool) (start : Int64) :
    Except Error (Catalog × Bool) := do
  schema.validate
  if c.has schema.name then
    if ifNotExists then return (c, false)
    else .error (.schema (.tableExists schema.name))
  else return (c.put schema.name (.new schema start), true)

/-- Drops a table, and tells whether it did: a missing one may be passed over. -/
def drop (c : Catalog) (name : String) (ifExists : Bool) : Except Error (Catalog × Bool) :=
  if c.has name then .ok (⟨c.tables.erase name⟩, true)
  else if ifExists then .ok (c, false)
  else .error (.schema (.noTable name))

/-- Grants a request if every table that it names is there. -/
def grant (c : Catalog) (q : LockRequest) : Except Error Unit :=
  match q.keys.find? fun name => !c.has name with
  | none => .ok ()
  | some name => .error (.schema (.noTable name))

/-- A table that is locked. -/
def table (c : Catalog) (granted : LockRequest) (name : String) : Except Error Relation :=
  match granted.get? name, c.tables.get? name with
  | some _, some r => .ok r
  | _, _ => .error (.internal (.notLocked name))

/-- A table that is locked for writing. -/
def tableToWrite (c : Catalog) (granted : LockRequest) (name : String) :
    Except Error Relation :=
  match granted.get? name with
  | some .read => .error (.internal (.readLocked name))
  | _ => c.table granted name

end Catalog

end MiniSql
