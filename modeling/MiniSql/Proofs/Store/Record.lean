/-
# What is kept of a row

What is decoded from the bytes of a row is the row as it is kept. Keeping it again changes nothing
more (`Record.encode_decode`), so two rows have the same bytes where they are kept as the same row
(`Value.encode_inj`).

Only instants can change on the way. They stay as they are if they are `Genuine`, and so does a row
if all its instants are (`Record.roundTrips_iff`). The clock gives no others, and texts name no
others; only an instant that is handed over as such can be one.
-/

import MiniSql.Proofs.Time.Calendar
import MiniSql.Store.Relation

namespace MiniSql

namespace Value

variable {v w : Value}

/-- NULL is kept. -/
@[simp] theorem kept_null : null.kept = null := rfl

/-- An integer is kept. -/
@[simp] theorem kept_integer (i : Int64) : (integer i).kept = integer i := rfl

/-- An instant is kept as the one that its text names. -/
@[simp] theorem kept_timestamp (t : Time.Instant) : (timestamp t).kept = timestamp t.readBack := rfl

/-- A value keeps its type. -/
@[simp] theorem type?_kept (v : Value) : v.kept.type? = v.type? := by cases v <;> rfl

/-- Only NULL is kept as NULL. -/
theorem kept_eq_null : v.kept = null ↔ v = null := by
  rw [← type?_eq_none_iff, type?_kept, type?_eq_none_iff]

/-- What is kept has the same bytes. -/
theorem encode_kept (v : Value) : v.kept.encode = v.encode := by
  cases v with
  | timestamp t => exact congrArg Code.timestamp t.moment_readBack
  | _ => rfl

/-- What was kept once is kept as it is. -/
@[simp] theorem kept_kept (v : Value) : v.kept.kept = v.kept := congrArg decode v.encode_kept

/-- Two values have the same bytes where they are kept as the same value. -/
theorem encode_inj : v.encode = w.encode ↔ v.kept = w.kept := by
  constructor
  · exact congrArg decode
  · intro h
    rw [← encode_kept v, h, encode_kept]

/-- **A value is decoded from its own bytes** unless it is an instant that is not genuine. -/
theorem roundTrips_iff : v.RoundTrips ↔ ∀ t, v = timestamp t → t.Genuine := by
  cases v with
  | timestamp t =>
    show timestamp t.readBack = timestamp t ↔ _
    simp [Time.Instant.readBack_eq_self_iff]
  | _ => exact ⟨fun _ _ h => (nomatch h), fun _ => rfl⟩

/-- What was kept round-trips. -/
theorem roundTrips_kept (v : Value) : v.kept.RoundTrips := v.kept_kept

end Value

namespace Record

variable {row : Row} {record record' : Record}

/-- Records are the same if their codes are. -/
theorem ext (h : record.codes = record'.codes) : record = record' := by
  cases record; cases record'; cases h; rfl

/-- Each value of a row is kept by itself. -/
theorem kept_eq (row : Row) : kept row = row.map Value.kept := List.map_map

/-- The first value of a row is kept by itself. -/
@[simp] theorem kept_cons (v : Value) (row : Row) : kept (v :: row) = v.kept :: kept row := rfl

/-- A row keeps its width. -/
@[simp] theorem length_kept (row : Row) : (kept row).length = row.length := by
  rw [kept_eq, List.length_map]

/-- **A row that is read has the bytes that it is read from.** -/
theorem encode_decode (record : Record) : encode record.decode = record := by
  obtain ⟨_, row, rfl⟩ := record
  refine ext ?_
  show (kept row).map Value.encode = row.map Value.encode
  rw [kept_eq, List.map_map]
  exact List.map_congr_left fun v _ => v.encode_kept

/-- What is read back is kept as it is. -/
theorem kept_decode (record : Record) : kept record.decode = record.decode :=
  congrArg decode record.encode_decode

/-- A row that was kept once is kept as it is. -/
@[simp] theorem kept_kept (row : Row) : kept (kept row) = kept row := kept_decode (encode row)

/-- **A row is decoded from its own bytes** if all its values are. -/
theorem roundTrips_iff : RoundTrips row ↔ ∀ v ∈ row, v.RoundTrips := by
  show kept row = row ↔ ∀ v ∈ row, v.kept = v
  rw [kept_eq]
  constructor
  · exact fun h v hv => List.map_eq_map_iff.1 (h.trans (List.map_id row).symm) v hv
  · exact fun h => (List.map_congr_left h).trans (List.map_id row)

/-- A leap second inside a minute is kept as the second behind it, so it has the key of that one. -/
example : kept [.timestamp ⟨45296, 1500000000⟩] = [.timestamp ⟨45297, 500000000⟩] ∧
    encode [.timestamp ⟨45296, 1500000000⟩] = encode [.timestamp ⟨45297, 500000000⟩] := by
  decide +kernel

/-- What is kept in a column is kept of the value there. -/
theorem valueAt_kept (i : Nat) (row : Row) :
    Relation.valueAt i (kept row) = (Relation.valueAt i row).kept := by
  rw [Relation.valueAt, Relation.valueAt, kept_eq, List.getElem?_map]
  cases row[i]? <;> rfl

end Record

end MiniSql
