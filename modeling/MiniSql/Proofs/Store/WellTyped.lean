/-
# What every stored row is like

A column says what it holds: values of its type, and `NULL` unless it is marked otherwise. A
schema is well formed if a table can have it, and a relation is well typed if its schema is well
formed and each row has one value for each column, which the column holds. Each change of a
relation keeps it well typed:

| change | why |
| --- | --- |
| insert | every row is prepared before it is stored |
| update | every row is prepared, and stamped only where the column holds instants |
| delete, truncate | the rows that stay were there before |

What is kept of a row has the types of the row and is `NULL` where the row is.
-/

import MiniSql.Proofs.Store.Change

namespace MiniSql

/-- The column may hold the value. -/
def Column.Holds (c : Column) (v : Value) : Prop :=
  (v = .null ∨ v.type? = some c.type) ∧ (v = .null → c.nullable = true)

/-- The modifiers of the column suit its type and each other. -/
structure Column.WellFormed (c : Column) : Prop where
  primaryKey_notNull : c.primaryKey = true → c.nullable = false
  autoincrement_integer : c.autoincrement = true → c.type = .integer
  onUpdate_timestamp : c.onUpdate = true → c.type = .timestamp
  default_holds : ∀ v, c.default = some (.value v) → c.Holds v

/-- The schema is one that a table can have. -/
structure Schema.WellFormed (s : Schema) : Prop where
  columns_ne_nil : s.columns ≠ []
  names_nodup : (s.columns.map (·.name)).Nodup
  onePrimaryKey : s.columns.countP (·.primaryKey) ≤ 1
  columns : ∀ c ∈ s.columns, c.WellFormed

/-- The row has one value for each column, and the column holds it. -/
def Schema.Holds (s : Schema) (row : Row) : Prop := List.Forall₂ Column.Holds s.columns row

/-- The schema is well formed and holds every row. -/
structure Relation.WellTyped (r : Relation) : Prop where
  schema : r.schema.WellFormed
  rows : ∀ e ∈ r.scan, r.schema.Holds e.2

/-- Every table stands under the name of its schema and is well typed. -/
def Catalog.WellTyped (c : Catalog) : Prop :=
  ∀ e ∈ c.tables.entries, e.2.schema.name = e.1 ∧ e.2.WellTyped

/-- The key of a schema that a table can have is a column that is not nullable. -/
theorem Schema.WellFormed.key {s : Schema} {key : Nat} (hs : s.WellFormed)
    (hkey : s.primaryKey? = some key) : ∃ c, s.columns[key]? = some c ∧ c.nullable = false := by
  obtain ⟨hlt, hprimary, -⟩ := List.findIdx?_eq_some_iff_getElem.1 hkey
  exact ⟨s.columns[key], List.getElem?_eq_getElem hlt,
    (hs.columns _ (List.getElem_mem hlt)).primaryKey_notNull hprimary⟩

/-- What a row has in a column is what the column may hold. -/
theorem Schema.Holds.valueAt {s : Schema} {row : Row} {i : Nat} {c : Column} (h : s.Holds row)
    (hc : s.columns[i]? = some c) : c.Holds (Relation.valueAt i row) := by
  obtain ⟨hlength, hall⟩ := List.forall₂_iff_get.1 h
  obtain ⟨hi, rfl⟩ := List.getElem?_eq_some_iff.1 hc
  rw [Relation.valueAt, List.getElem?_eq_getElem (hlength ▸ hi)]
  exact hall i hi (hlength ▸ hi)

/-- The key of a stored row is of the type of its column. -/
theorem Relation.WellTyped.key_type {r : Relation} {key : Nat} {e : Nat × Row} (hr : r.WellTyped)
    (hkey : r.schema.primaryKey? = some key) (he : e ∈ r.scan) :
    ∃ c, r.schema.columns[key]? = some c ∧ (Relation.valueAt key e.2).type? = some c.type := by
  obtain ⟨c, hc, hnotNull⟩ := hr.schema.key hkey
  obtain ⟨htype, hnull⟩ := (hr.rows e he).valueAt hc
  refine ⟨c, hc, htype.resolve_left fun h => ?_⟩
  rw [hnull h] at hnotNull
  cases hnotNull

namespace Relation

open Timed

variable {r r' : Relation} {t t' : Time.Clock}

/-! ## Preparing rows -/

/-- A value that was prepared is one the column may hold. -/
theorem prepareValue_holds {c : Column} {v w : Value} (h : prepareValue c v = .ok w) :
    c.Holds w := by
  unfold prepareValue at h
  split at h
  · cases h
  · rename_i w' hw
    split at h
    · cases h
    · rename_i hnull
      cases h
      refine ⟨Value.coerce_type hw, fun hv => ?_⟩
      subst hv
      simpa [Value.isNull] using hnull

/-- The values of a prepared row are ones their columns may hold. -/
theorem prepareValues_holds {columns : List Column} {row row' : Row}
    (hlength : row.length = columns.length) (h : prepareValues columns row = .ok row') :
    List.Forall₂ Column.Holds columns row' := by
  induction columns generalizing row row' with
  | nil =>
    cases h
    exact .nil
  | cons c columns ih =>
    cases row with
    | nil => cases hlength
    | cons v row =>
      obtain ⟨w, hw, h⟩ := Except.bind_eq_ok.1 h
      obtain ⟨row', hrow, h⟩ := Except.bind_eq_ok.1 h
      cases h
      exact .cons (prepareValue_holds hw) (ih (by simpa using hlength) hrow)

/-- A prepared row is one the schema may hold. -/
theorem prepare_holds {s : Schema} {row row' : Row} (h : prepare s row = .ok row') :
    s.Holds row' := by
  unfold prepare at h
  split at h
  · cases h
  · rename_i hlength
    exact prepareValues_holds (by simpa [Schema.width] using hlength) h

/-! ## Completing and stamping rows -/

/-- A row of an insert is prepared last. -/
theorem completeRow_holds {s : Schema} {slots : List (Option Value)} {n n' : Numbering}
    {row : Row} (h : Gives (completeRow s slots n) t (row, n') t') : s.Holds row := by
  unfold completeRow at h
  split at h
  · cases not_gives_refuse h
  · simp only [gives_bind, gives_ofExcept, gives_pure, Prod.exists, Prod.mk.injEq] at h
    obtain ⟨_, _, _, -, _, _, ⟨hprepared, -⟩, ⟨rfl, -⟩, -⟩ := h
    exact prepare_holds hprepared

/-- A stamp goes only where the column holds instants. -/
theorem stamp_holds {columns : List Column} {row row' : Row}
    (hcolumns : ∀ c ∈ columns, c.WellFormed) (hrow : List.Forall₂ Column.Holds columns row)
    (h : Gives (stamp columns row) t row' t') : List.Forall₂ Column.Holds columns row' := by
  induction hrow generalizing t row' t' with
  | nil =>
    obtain ⟨rfl, -⟩ := gives_pure.1 h
    exact .nil
  | @cons c v columns row hv hrow ih =>
    obtain ⟨hc, hcolumns⟩ := List.forall_mem_cons.1 hcolumns
    unfold stamp at h
    split at h
    · rename_i hstamped
      simp only [gives_bind, gives_map, gives_pure] at h
      obtain ⟨_, _, ⟨i, -, rfl⟩, rest, _, hrest, rfl, -⟩ := h
      refine .cons ⟨.inr ?_, fun hnull => by cases hnull⟩ (ih hcolumns hrest)
      rw [hc.onUpdate_timestamp hstamped]
      rfl
    · simp only [gives_bind, gives_pure] at h
      obtain ⟨_, _, ⟨rfl, -⟩, rest, _, hrest, rfl, -⟩ := h
      exact .cons hv (ih hcolumns hrest)

/-- A row that was changed is one the schema may hold. -/
theorem change_holds {id : Nat} {row : Row} {e : Nat × Row} (hr : r.schema.WellFormed)
    (h : Gives (r.change id row) t e t') : r.schema.Holds e.2 := by
  obtain ⟨-, prepared, stamped, hprepared, hstamped, rfl⟩ := gives_change.1 h
  exact stamp_holds hr.columns (prepare_holds hprepared) hstamped

/-! ## Keeping rows -/

/-- A column may hold what is kept of a value that it may hold. -/
theorem holds_kept {c : Column} {v : Value} (h : c.Holds v) : c.Holds v.kept := by
  rw [Column.Holds, Value.kept_eq_null, Value.type?_kept]
  exact h

/-- A row that was kept is one the schema may hold. -/
theorem schema_holds_kept {s : Schema} {row : Row} (h : s.Holds row) :
    s.Holds (Record.kept row) := by
  rw [Schema.Holds, Record.kept_eq, List.forall₂_map_right_iff]
  exact h.imp fun _ _ => holds_kept

/-! ## Changing relations -/

/-- A new relation is well-typed. -/
theorem wellTyped_new {s : Schema} {start : Int64} (h : s.WellFormed) : (new s start).WellTyped :=
  ⟨h, fun _ he => nomatch he⟩

/-- **Every change keeps a relation well typed.** -/
theorem WellTyped.step (hr : r.WellTyped) (h : r.Step r') : r'.WellTyped := by
  refine ⟨h.schema_eq ▸ hr.schema, fun e he => ?_⟩
  rw [h.schema_eq]
  cases h with
  | insert h =>
    obtain ⟨rows, n, hrows, -, rfl, -⟩ := gives_insert.1 h
    rcases mem_scan_pushAll he with he | ⟨row, hmem, he⟩
    · exact hr.rows e he
    · obtain ⟨_, -, _, _, _, _, hrow⟩ := exists_mem_of_forall₂ (completeRows_each hrows) hmem
      exact he ▸ schema_holds_kept (completeRow_holds hrow)
  | update h =>
    obtain ⟨changed, hchanged, -, rfl, -⟩ := gives_update.1 h
    rcases mem_scan_putAll he with he | ⟨he, -⟩
    · obtain ⟨d, hmem, rfl⟩ := List.mem_map.1 he
      obtain ⟨_, -, _, _, hd⟩ := exists_mem_of_forall₂ hchanged.mapM hmem
      exact schema_holds_kept (change_holds hr.schema hd)
    · exact hr.rows e he
  | delete ids => exact hr.rows e (mem_scan_of_delete he)
  | truncate => cases he

end Relation

end MiniSql
