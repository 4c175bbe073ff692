/-
# The cells of a stored row

A row is stored column by column: a value is coerced to the type of its column, an update stamps
some columns, and an insert completes what is not supplied. `Cells R` says that each cell of a row
is what `R` allows for what was given to its column.

| what is done | what a cell is |
| --- | --- |
| a row is prepared | the value as its column stores it (`Column.Stores`) |
| slots are completed | a number, or what is supplied, as the column stores it (`Column.Fills`) |
| a row is changed | the value as its column stores it, or a stamp (`Column.Restamps`) |

Numbers come from the counter of the table, and default times and stamps from the clock. What the
cells of a row are says nothing of these yet: a stamp here is any instant.
-/

import MiniSql.Proofs.Plan.Shape
import MiniSql.Proofs.Store.Stamps

namespace MiniSql

open Timed
open MiniSql.Relation (Numbering)

/-! ## Cells -/

/-- Each cell of the row is what is allowed for what is given to its column. -/
inductive Cells {α : Type} (R : Column → α → Value → Prop) : List Column → List α → Row → Prop
  | nil : Cells R [] [] []
  | cons {c : Column} {a : α} {w : Value} {columns : List Column} {given : List α} {row : Row}
      (h : R c a w) (hs : Cells R columns given row) :
      Cells R (c :: columns) (a :: given) (w :: row)

namespace Cells

variable {α : Type} {R : Column → α → Value → Prop} {columns : List Column} {given : List α}
  {row : Row}

/-- There are as many values on both sides as columns. -/
theorem length (h : Cells R columns given row) :
    given.length = columns.length ∧ row.length = columns.length := by
  induction h with
  | nil => exact ⟨rfl, rfl⟩
  | cons _ _ ih =>
    rw [List.length_cons, List.length_cons, List.length_cons, ih.1, ih.2]
    exact ⟨rfl, rfl⟩

/-- There is such a row when there is such a cell for each column. -/
theorem exists_iff : (∃ row, Cells R columns given row) ↔
    List.Forall₂ (fun c a => ∃ w, R c a w) columns given := by
  constructor
  · rintro ⟨row, h⟩
    induction h with
    | nil => exact .nil
    | cons h _ ih => exact .cons ⟨_, h⟩ ih
  · intro h
    induction h with
    | nil => exact ⟨[], .nil⟩
    | cons hcell _ ih =>
      obtain ⟨w, hw⟩ := hcell
      obtain ⟨row, hrow⟩ := ih
      exact ⟨w :: row, .cons hw hrow⟩

end Cells

namespace Column

variable {c : Column}

/-- The column stores the value as the other one: of its type, and `NULL` only if it may be. -/
def Stores (c : Column) (v w : Value) : Prop :=
  v.coerce c.type = .ok w ∧ (w = .null → c.nullable = true)

/-- The value is what a row supplies: its slot, or the default of the column if there is none. A
default that is the current time may be any instant here. -/
inductive Supplies (c : Column) : Option Value → Value → Prop
  | given (v : Value) : c.Supplies (some v) v
  | default {v : Value} (h : c.default = some (.value v)) : c.Supplies none v
  | now (i : Time.Instant) (h : c.default = some .now) : c.Supplies none (.timestamp i)
  | null (h : c.default = none) (hnull : c.nullable = true) : c.Supplies none .null

/-- A row may have the slot for the column: nothing or `NULL` if it is autoincrement, and otherwise
something that the column stores. -/
def Takes (c : Column) (slot : Option Value) : Prop :=
  if c.autoincrement then slot = none ∨ slot = some .null
  else ∃ v w, c.Supplies slot v ∧ c.Stores v w

/-- The cell of a completed row: a number, or what is supplied as the column stores it. -/
inductive Fills (c : Column) : Option Value → Value → Prop
  | number {slot : Option Value} (hc : c.autoincrement = true)
      (hslot : slot = none ∨ slot = some .null) (n : Int64) : c.Fills slot (.integer n)
  | value {slot : Option Value} {v w : Value} (hc : c.autoincrement = false)
      (hv : c.Supplies slot v) (hw : c.Stores v w) : c.Fills slot w

/-- The cell of a changed row: a stamp if the column is stamped, whatever it would have stored. -/
inductive Restamps (c : Column) : Value → Value → Prop
  | kept {v w : Value} (hc : c.onUpdate = false) (hw : c.Stores v w) : c.Restamps v w
  | stamped {v w : Value} (hc : c.onUpdate = true) (hw : c.Stores v w) (i : Time.Instant) :
      c.Restamps v (.timestamp i)

/-- A column takes what it can be filled with. -/
theorem takes_iff {slot : Option Value} : c.Takes slot ↔ ∃ w, c.Fills slot w := by
  unfold Takes
  split
  · rename_i hc
    constructor
    · exact fun hslot => ⟨.integer 0, .number hc hslot 0⟩
    · rintro ⟨w, ⟨_, hslot, n⟩ | ⟨hc', _, _⟩⟩
      · exact hslot
      · rw [hc] at hc'
        cases hc'
  · rename_i hc
    have hc : c.autoincrement = false := by simpa using hc
    constructor
    · rintro ⟨v, w, hv, hw⟩
      exact ⟨w, .value hc hv hw⟩
    · rintro ⟨w, ⟨hc', _, n⟩ | ⟨_, hv, hw⟩⟩
      · rw [hc] at hc'
        cases hc'
      · exact ⟨_, w, hv, hw⟩

/-- A value can be stamped anew exactly if it can be stored. -/
theorem exists_restamps_iff {v : Value} : (∃ w, c.Restamps v w) ↔ ∃ w, c.Stores v w := by
  constructor
  · rintro ⟨w, ⟨_, hw⟩ | ⟨_, hw, _⟩⟩ <;> exact ⟨_, hw⟩
  · rintro ⟨w, hw⟩
    by_cases hc : c.onUpdate = true
    · exact ⟨.timestamp ⟨0, 0⟩, .stamped hc hw ⟨0, 0⟩⟩
    · exact ⟨w, .kept (by simpa using hc) hw⟩

/-- What the column may hold is stored as it is. -/
theorem Stores.of_type {v w : Value} (h : c.Stores v w) (hv : v.type? = some c.type) : w = v := by
  rw [Stores, Value.coerce_of_type (.inr hv)] at h
  cases h.1
  rfl

/-- A value of the column's type is stored as it is. -/
theorem stores_iff_of_type {v w : Value} (hv : v.type? = some c.type) :
    c.Stores v w ↔ w = v := by
  constructor
  · exact fun h => h.of_type hv
  · rintro rfl
    refine ⟨Value.coerce_of_type (.inr hv), ?_⟩
    rintro rfl
    cases hv

/-- The type of an autoincrement column. -/
theorem integer_of_fault? (h : Schema.columnFault? c = none) (hc : c.autoincrement = true) :
    c.type = .integer := by
  unfold Schema.columnFault? at h
  by_contra htype
  simp [hc, htype] at h

/-- The type of a column whose default is the current time. -/
theorem timestamp_of_fault? (h : Schema.columnFault? c = none) (hc : c.default = some .now) :
    c.type = .timestamp := by
  unfold Schema.columnFault? at h
  by_contra htype
  simp only [hc, if_neg htype] at h
  split at h
  · cases h
  · split at h <;> cases h

end Column

/-- No column of a schema that passes the check has a fault. -/
theorem Schema.columnFault?_of_validate {s : Schema} (h : s.validate = .ok ()) :
    ∀ c ∈ s.columns, columnFault? c = none := by
  have hfault : s.fault? = none := by
    unfold validate at h
    split at h
    · cases h
    · assumption
  unfold fault? at hfault
  split at hfault
  · cases hfault
  · split at hfault
    · cases hfault
    · rename_i hcolumns
      exact fun c hc => ((columnsFault?_eq_none.1 hcolumns).1 c hc).2

/-! ## Preparing a row -/

namespace Relation

variable {c : Column} {columns : List Column} {t t' : Time.Clock}

/-- Preparing a value gives what the column stores. -/
theorem prepareValue_eq_ok {v w : Value} : prepareValue c v = .ok w ↔ c.Stores v w := by
  unfold prepareValue Column.Stores
  split
  · rename_i e hcoerce
    simp [hcoerce]
  · rename_i w' hcoerce
    rw [hcoerce]
    split
    · rename_i hnull
      rw [Bool.and_eq_true, Value.isNull_iff, Bool.not_eq_true'] at hnull
      obtain ⟨rfl, hnullable⟩ := hnull
      constructor
      · exact fun h => nomatch h
      · rintro ⟨h, hmay⟩
        cases h
        rw [hmay rfl] at hnullable
        cases hnullable
    · rename_i hnull
      constructor
      · intro h
        cases h
        refine ⟨rfl, ?_⟩
        rintro rfl
        simpa [Value.isNull] using hnull
      · rintro ⟨h, -⟩
        cases h
        rfl

/-- Preparing a row gives what its columns store. -/
theorem prepareValues_eq_ok {row row' : Row} (hlength : row.length = columns.length) :
    prepareValues columns row = .ok row' ↔ Cells Column.Stores columns row row' := by
  induction columns generalizing row row' with
  | nil =>
    obtain rfl := List.length_eq_zero_iff.1 hlength
    constructor
    · intro h
      cases h
      exact .nil
    · rintro ⟨⟩
      rfl
  | cons c columns ih =>
    cases row with
    | nil => cases hlength
    | cons v row =>
      have ih {rest : Row} :
          prepareValues columns row = .ok rest ↔ Cells Column.Stores columns row rest :=
        ih (by simpa using hlength)
      constructor
      · intro h
        obtain ⟨w, hw, h⟩ := Except.bind_eq_ok.1 h
        obtain ⟨rest, hrest, h⟩ := Except.bind_eq_ok.1 h
        cases h
        exact .cons (prepareValue_eq_ok.1 hw) (ih.1 hrest)
      · rintro (_ | ⟨hw, hrest⟩)
        refine Except.bind_eq_ok.2 ⟨_, prepareValue_eq_ok.2 hw, ?_⟩
        exact Except.bind_eq_ok.2 ⟨_, ih.2 hrest, rfl⟩

/-- **A row is prepared** when every column stores its value. -/
theorem prepare_eq_ok {s : Schema} {row row' : Row} :
    prepare s row = .ok row' ↔ Cells Column.Stores s.columns row row' := by
  unfold prepare Schema.width
  split
  · rename_i hlength
    constructor
    · exact fun h => nomatch h
    · exact fun h => absurd h.length.1 hlength
  · rename_i hlength
    exact prepareValues_eq_ok (by simpa using hlength)

/-! ## Stamping a row -/

/-- A row is stamped, after it has been prepared, when its cells are those of a changed row and the
clock has been read for each stamp. -/
theorem stamped_iff {row stored : Row} :
    (∃ prepared, Cells Column.Stores columns row prepared ∧
        Gives (stamp columns prepared) t stored t') ↔
      Cells Column.Restamps columns row stored ∧ Readings t (stampsOf columns stored) t' := by
  constructor
  · rintro ⟨prepared, hprepared, hstamp⟩
    refine ⟨?_, stamp_readings hstamp⟩
    induction hprepared generalizing t stored with
    | nil =>
      obtain ⟨rfl, -⟩ := gives_pure.1 hstamp
      exact .nil
    | @cons c v w columns row prepared hw _ ih =>
      unfold stamp at hstamp
      split at hstamp
      · rename_i hc
        simp only [gives_bind, gives_map, gives_pure] at hstamp
        obtain ⟨_, _, ⟨i, -, rfl⟩, rest, _, hrest, rfl, rfl⟩ := hstamp
        exact .cons (.stamped hc hw i) (ih hrest)
      · rename_i hc
        simp only [gives_bind, gives_pure] at hstamp
        obtain ⟨_, _, ⟨rfl, -⟩, rest, _, hrest, rfl, rfl⟩ := hstamp
        exact .cons (.kept (by simpa using hc) hw) (ih hrest)
  · rintro ⟨hcells, hreadings⟩
    -- Each reading is the stamp of its column, so the clock goes on through the row.
    induction hcells generalizing t with
    | nil =>
      cases hreadings
      exact ⟨[], .nil, gives_pure.2 ⟨rfl, rfl⟩⟩
    | @cons c v w columns row stored hcell hcells ih =>
      cases hcell with
      | kept hc hw =>
        rw [stampsOf, if_neg (by simp [hc])] at hreadings
        obtain ⟨prepared, hprepared, hstamp⟩ := ih hreadings
        refine ⟨w :: prepared, .cons hw hprepared, ?_⟩
        rw [stamp, if_neg (by simp [hc])]
        exact gives_bind.2 ⟨w, t, gives_pure.2 ⟨rfl, rfl⟩,
          gives_bind.2 ⟨stored, t', hstamp, gives_pure.2 ⟨rfl, rfl⟩⟩⟩
      | @stamped w hc hw i =>
        rw [stampsOf, if_pos hc] at hreadings
        cases hreadings with
        | cons hreadings =>
          obtain ⟨prepared, hprepared, hstamp⟩ := ih hreadings
          refine ⟨w :: prepared, .cons hw hprepared, ?_⟩
          rw [stamp, if_pos hc]
          exact gives_bind.2 ⟨_, t.read.2, gives_map.2 ⟨t.read.1, rfl, rfl⟩,
            gives_bind.2 ⟨stored, t', hstamp, gives_pure.2 ⟨rfl, rfl⟩⟩⟩

/-- A stamp is always given. -/
theorem exists_gives_stamp (columns : List Column) (row : Row) (t : Time.Clock) :
    ∃ stored t', Gives (stamp columns row) t stored t' := by
  induction columns generalizing row t with
  | nil => exact ⟨[], t, gives_pure.2 ⟨rfl, rfl⟩⟩
  | cons c columns ih =>
    cases row with
    | nil => exact ⟨[], t, gives_pure.2 ⟨rfl, rfl⟩⟩
    | cons v row =>
      unfold stamp
      by_cases hc : c.onUpdate = true
      · obtain ⟨stored, t', hstored⟩ := ih row t.read.2
        rw [if_pos hc]
        exact ⟨_, t', gives_bind.2 ⟨_, t.read.2, gives_map.2 ⟨t.read.1, rfl, rfl⟩,
          gives_bind.2 ⟨stored, t', hstored, gives_pure.2 ⟨rfl, rfl⟩⟩⟩⟩
      · obtain ⟨stored, t', hstored⟩ := ih row t
        rw [if_neg hc]
        exact ⟨_, t', gives_bind.2 ⟨v, t, gives_pure.2 ⟨rfl, rfl⟩,
          gives_bind.2 ⟨stored, t', hstored, gives_pure.2 ⟨rfl, rfl⟩⟩⟩⟩

end Relation
end MiniSql
