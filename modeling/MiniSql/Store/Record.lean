/-
# Records

A row is kept as bytes. It is encoded when it is stored and decoded when it is scanned, and two keys
are the same where their bytes are. A record is what the bytes of a row tell:

| value | its bytes tell |
| --- | --- |
| truth value, number, text, `NULL` | the value |
| instant | its text, so the moment that a clock shows then |

What is decoded is the row as it is kept (`Record.kept`). It is the row itself, unless it holds an
instant that its text does not name: a leap second inside a minute.
-/

import MiniSql.Value

namespace MiniSql

/-- What the bytes of a value tell. -/
inductive Code where
  | null
  | boolean (b : Bool)
  | integer (i : Int64)
  | float (x : Number.Binary64)
  | text (s : String)
  | timestamp (m : Time.Moment)
  deriving DecidableEq, Repr

namespace Value

/-- The value in bytes. An instant is written as text. -/
def encode : Value → Code
  | null => .null
  | boolean b => .boolean b
  | integer i => .integer i
  | float x => .float x
  | text s => .text s
  | timestamp t => .timestamp t.moment

/-- The value that bytes tell. The text of an instant is in universal time. -/
def decode : Code → Value
  | .null => null
  | .boolean b => boolean b
  | .integer i => integer i
  | .float x => float x
  | .text s => text s
  | .timestamp m => timestamp (m.instant 0)

/-- The value as it is kept: encoded and decoded. -/
def kept (v : Value) : Value := decode v.encode

/-- The value is decoded from its own bytes. -/
def RoundTrips (v : Value) : Prop := decode v.encode = v

instance : DecidablePred RoundTrips := fun v => inferInstanceAs (Decidable (decode v.encode = v))

end Value

/-- The bytes of a row: those of its values, one after the other. -/
structure Record where
  codes : List Code
  /-- They have been written for some row. -/
  written : ∃ row : Row, row.map Value.encode = codes
  deriving DecidableEq

namespace Record

/-- The bytes that are written for a row. -/
def encode (row : Row) : Record := ⟨row.map Value.encode, row, rfl⟩

/-- The row that is read from the bytes. -/
def decode (record : Record) : Row := record.codes.map Value.decode

/-- The row as it is kept: encoded and decoded. -/
def kept (row : Row) : Row := (encode row).decode

/-- The row is decoded from its own bytes. -/
def RoundTrips (row : Row) : Prop := (encode row).decode = row

instance : DecidablePred RoundTrips :=
  fun row => inferInstanceAs (Decidable ((encode row).decode = row))

end Record

end MiniSql
