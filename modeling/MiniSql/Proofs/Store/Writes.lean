/-
# What a change is refused with

An `INSERT` and an `UPDATE` are refused for what their values are, never with an internal error:
the rows that an `UPDATE` replaces are rows that it has just passed over, so none of them is
missing when it is stored (`Mutation.update_neverInternal`), and each is as wide as the labels of
its table.
-/

import MiniSql.Proofs.Query.Width
import MiniSql.Proofs.Store.Mutation
import MiniSql.Proofs.Store.WellTyped

namespace MiniSql

open Timed

variable {t t' : Time.Clock}

/-- A default is never refused. -/
theorem Column.defaultValue?_neverInternal (c : Column) : NeverInternal c.defaultValue? := by
  unfold defaultValue?
  split
  · exact .pure _
  · exact NeverInternal.now.bind fun _ _ _ _ => .pure _
  · exact .pure _

/-- A column that is not there is a matter of the schema. -/
theorem Schema.columnIndex_neverInternal (s : Schema) (name : String) :
    Except.NeverInternal (s.columnIndex name) := by
  unfold columnIndex
  split
  · exact .ok _
  · exact .schema _

/-- A row that fits a schema has a value for each label. -/
theorem Schema.length_eq_of_holds {s : Schema} {row : Row} (h : s.Holds row) :
    row.length = s.labels.length := by
  rw [length_labels]
  exact h.length_eq.symm

/-- Stored rows are as wide as their schema. -/
theorem Relation.WellTyped.rectangular {r : Relation} (hr : r.WellTyped) :
    r.rowset.Rectangular := by
  intro row hrow
  obtain ⟨e, he, rfl⟩ := List.mem_map.1 hrow
  exact Schema.length_eq_of_holds (hr.rows e he)

/-! ## Relations -/

namespace Relation

variable {r : Relation}

/-- A value that does not fit its column is at fault itself. -/
theorem prepareValue_neverInternal (c : Column) (v : Value) :
    Except.NeverInternal (prepareValue c v) := by
  unfold prepareValue
  split
  · exact .schema _
  · split
    · exact .constraint _
    · exact .ok _

/-- A value in a row that does not fit its column is at fault itself. -/
theorem prepareValues_neverInternal (columns : List Column) (row : Row) :
    Except.NeverInternal (prepareValues columns row) := by
  induction columns generalizing row with
  | nil => exact .ok []
  | cons c columns ih =>
    cases row with
    | nil => exact .ok []
    | cons v row =>
      exact (prepareValue_neverInternal c v).bind fun _ _ => (ih row).bind fun _ _ => .ok _

/-- A row of another width is at fault itself. -/
theorem prepare_neverInternal (s : Schema) (row : Row) : Except.NeverInternal (prepare s row) := by
  unfold prepare
  split
  · exact .schema _
  · exact prepareValues_neverInternal s.columns row

/-- A key that is there already is at fault itself. -/
theorem checkUnique_neverInternal (r : Relation) (rows : List Row) (replaced : List Nat) :
    Except.NeverInternal (r.checkUnique rows replaced) := by
  unfold checkUnique
  split
  · exact .ok ()
  · dsimp only
    split
    · exact .ok ()
    · exact .constraint _

/-- A slot that its column cannot take is at fault itself. -/
theorem complete_neverInternal (c : Column) (slot : Option Value) (n : Numbering) :
    NeverInternal (complete c slot n) := by
  unfold complete
  split
  · split
    · exact .pure _
    · exact .pure _
    · exact .refuse_constraint _
  · split
    · exact .pure _
    · refine c.defaultValue?_neverInternal.bind fun _ v _ _ => ?_
      split
      · exact .pure _
      · exact .refuse_constraint _

/-- A slot in a row that its column cannot take is at fault itself. -/
theorem completeAll_neverInternal (columns : List Column) (slots : List (Option Value))
    (n : Numbering) : NeverInternal (completeAll columns slots n) := by
  induction columns generalizing slots n with
  | nil => exact .pure _
  | cons c columns ih =>
    cases slots with
    | nil => exact .pure _
    | cons slot slots =>
      exact (complete_neverInternal c slot n).bind fun _ _ _ _ =>
        (ih slots _).bind fun _ _ _ _ => .pure _

/-- A row to insert is at fault for its width or for a slot. -/
theorem completeRow_neverInternal (s : Schema) (slots : List (Option Value)) (n : Numbering) :
    NeverInternal (completeRow s slots n) := by
  unfold completeRow
  split
  · exact .refuse_schema _
  · refine (completeAll_neverInternal s.columns slots n).bind fun _ out _ _ => ?_
    exact (NeverInternal.ofExcept.2 (prepare_neverInternal s out.1)).bind fun _ _ _ _ => .pure _

/-- Rows to insert are at fault as one of them is. -/
theorem completeRows_neverInternal (s : Schema) (slots : List (List (Option Value)))
    (n : Numbering) : NeverInternal (completeRows s slots n) := by
  induction slots generalizing n with
  | nil => exact .pure _
  | cons slot slots ih =>
    exact (completeRow_neverInternal s slot n).bind fun _ out _ _ =>
      (ih out.2).bind fun _ _ _ _ => .pure _

/-- **An insert** meets no internal error, whatever its slots are. -/
theorem insert_neverInternal (r : Relation) (slots : List (List (Option Value))) :
    NeverInternal (r.insert slots) := by
  refine (completeRows_neverInternal r.schema slots _).bind fun _ out _ _ => ?_
  exact (NeverInternal.ofExcept.2 (r.checkUnique_neverInternal out.1 [])).bind
    fun _ _ _ _ => .pure _

/-- A stamp is never refused. -/
theorem stamp_neverInternal (columns : List Column) (row : Row) :
    NeverInternal (stamp columns row) := by
  induction columns generalizing row with
  | nil => exact .pure []
  | cons c columns ih =>
    cases row with
    | nil => exact .pure []
    | cons v row =>
      unfold stamp
      split
      · exact (NeverInternal.now.map _).bind fun _ _ _ _ => (ih row).bind fun _ _ _ _ => .pure _
      · exact (NeverInternal.pure v).bind fun _ _ _ _ => (ih row).bind fun _ _ _ _ => .pure _

/-- A row that is there is changed. -/
theorem change_neverInternal {id : Nat} (hid : r.rows.contains id = true) (row : Row) :
    NeverInternal (r.change id row) := by
  unfold change
  rw [if_pos hid]
  refine (NeverInternal.ofExcept.2 (prepare_neverInternal r.schema row)).bind fun _ _ _ _ => ?_
  exact (stamp_neverInternal r.schema.columns _).bind fun _ _ _ _ => .pure _

/-- **An update** meets no internal error if the ids that it lists are there. -/
theorem update_neverInternal {changes : List (Nat × Row)}
    (h : ∀ e ∈ changes, r.rows.contains e.1 = true) : NeverInternal (r.update changes) := by
  refine (NeverInternal.mapM fun e he => change_neverInternal (h e he) e.2).bind
    fun _ rows _ _ => ?_
  exact (NeverInternal.ofExcept.2 (r.checkUnique_neverInternal _ _)).bind fun _ _ _ _ => .pure _

end Relation

/-! ## Statements -/

namespace Mutation

variable {r : Relation} {s : Schema}

/-- A value of an `INSERT` is computed without a row, so it has no columns to find there. -/
theorem slot_neverInternal (e : Expression) : NeverInternal (slot e) := by
  unfold slot
  split
  · exact .pure none
  · exact .refuse_schema _
  · exact (e.evaluate_neverInternal rfl).bind fun _ _ _ _ => .pure _

/-- A column that is named wrongly is at fault itself. -/
theorem place_neverInternal (s : Schema) (row : List (Option Value)) (seen : List String)
    (named : List (String × Option Value)) : Except.NeverInternal (place s row seen named) := by
  induction named generalizing row seen with
  | nil => exact .ok row
  | cons e named ih =>
    obtain ⟨name, v⟩ := e
    unfold place
    split
    · exact .schema _
    · exact (s.columnIndex_neverInternal name).bind fun _ _ => ih _ _

/-- A tuple that does not fit its columns is at fault itself. -/
theorem align_neverInternal (s : Schema) (columns : List String) (values : List (Option Value)) :
    Except.NeverInternal (align s columns values) := by
  unfold align alignAll
  split
  · dsimp only
    split
    · exact .ok _
    · split
      · exact .ok _
      · exact .schema _
  · split
    · exact .schema _
    · exact place_neverInternal s _ [] _

/-- **An `INSERT`** is not refused with an internal error. -/
theorem insert_neverInternal (r : Relation) (columns : List String)
    (rows : List (List Expression)) : NeverInternal (insert r columns rows) := by
  have hslots : NeverInternal (slots r.schema columns rows) :=
    .mapM fun tuple _ => (NeverInternal.mapM fun e _ => slot_neverInternal e).bind
      fun _ values _ _ => NeverInternal.ofExcept.2 (align_neverInternal r.schema columns values)
  exact hslots.bind fun _ _ _ _ => r.insert_neverInternal _

/-- An assignment to a column that cannot be assigned is at fault itself. -/
theorem targets_neverInternal (s : Schema) (seen : List Nat)
    (assignments : List (String × Expression)) :
    Except.NeverInternal (targets s seen assignments) := by
  induction assignments generalizing seen with
  | nil => exact .ok []
  | cons a assignments ih =>
    obtain ⟨name, e⟩ := a
    refine (s.columnIndex_neverInternal name).bind fun i _ => ?_
    split
    · exact .schema _
    · split
      · exact .constraint _
      · exact (ih _).bind fun _ _ => .ok _

/-- What is assigned is computed from a row that has a value for each label. -/
theorem newValue_neverInternal {row : Row} (hrow : row.length = s.labels.length) (i : Nat)
    (e : Expression) : NeverInternal (newValue s row i e) := by
  unfold newValue
  split
  · refine (Column.defaultValue?_neverInternal _).bind fun _ v _ _ => ?_
    split
    · exact .pure _
    · exact .refuse_constraint _
  · exact Expression.evaluate_neverInternal hrow _

/-- A changed row is computed from a row that has a value for each label. -/
theorem assign_neverInternal {row : Row} (hrow : row.length = s.labels.length) (changed : Row)
    (assigned : List (Nat × Expression)) : NeverInternal (assign s row changed assigned) := by
  induction assigned generalizing changed with
  | nil => exact .pure changed
  | cons a assigned ih => exact (newValue_neverInternal hrow a.1 a.2).bind fun _ _ _ _ => ih _

/-- The rows that a predicate finds have a value for each label, as all rows have. -/
theorem changes_neverInternal {entries : List (Nat × Row)}
    (h : ∀ e ∈ entries, e.2.length = s.labels.length) (p : Expression)
    (assigned : List (Nat × Expression)) : NeverInternal (changes s p assigned entries) := by
  induction entries with
  | nil => exact .pure []
  | cons e entries ih =>
    obtain ⟨hrow, h⟩ := List.forall_mem_cons.1 h
    refine (p.holds_neverInternal hrow).bind fun _ found _ _ => ?_
    split
    · exact (assign_neverInternal hrow e.2 assigned).bind fun _ _ _ _ =>
        (ih h).bind fun _ _ _ _ => .pure _
    · exact ih h

/-- **An `UPDATE`** is not refused with an internal error: it finds each row that it has passed
over. -/
theorem update_neverInternal (hr : r.WellTyped) (p : Expression)
    (assignments : List (String × Expression)) : NeverInternal (update r p assignments) := by
  refine (NeverInternal.ofExcept.2 (targets_neverInternal r.schema [] assignments)).bind
    fun _ assigned _ _ => ?_
  refine (changes_neverInternal (fun e he => Schema.length_eq_of_holds (hr.rows e he)) p
    assigned).bind fun _ changed _ hchanged => Relation.update_neverInternal fun e he => ?_
  obtain ⟨row, hrow, -⟩ := mem_changes hchanged e he
  rw [← SortedMap.contains_map (f := Record.decode), SortedMap.contains,
    SortedMap.mem_entries_iff.1 hrow]
  rfl

/-- A predicate can be asked of each row, since all have a value for each label. -/
theorem matching_neverInternal {entries : List (Nat × Row)}
    (h : ∀ e ∈ entries, e.2.length = s.labels.length) (p : Expression) :
    NeverInternal (matching s p entries) := by
  induction entries with
  | nil => exact .pure []
  | cons e entries ih =>
    obtain ⟨hrow, h⟩ := List.forall_mem_cons.1 h
    exact (p.holds_neverInternal hrow).bind fun _ _ _ _ => (ih h).bind fun _ _ _ _ => .pure _

/-- **A `DELETE`** is not refused with an internal error. -/
theorem delete_neverInternal (hr : r.WellTyped) (p : Expression) : NeverInternal (delete r p) :=
  (matching_neverInternal (fun e he => Schema.length_eq_of_holds (hr.rows e he)) p).bind
    fun _ _ _ _ => .pure _

end Mutation

end MiniSql
