/-
# What a change is refused with

An `INSERT`, an `UPDATE` and a `DELETE` are refused for the columns that they name, for their values
or for a constraint of the table (`Mutation.insert_within`, `Mutation.update_within`,
`Mutation.delete_within`), and a schema for what it says by itself (`Schema.validate_within`).
-/

import MiniSql.Mutation
import MiniSql.Proofs.Query.Refused

namespace MiniSql

open Error Timed

/-! ## Schemas -/

/-- A default is never refused. -/
theorem Column.defaultValue?_within {A : Error → Prop} (c : Column) :
    Within A c.defaultValue? := by
  unfold defaultValue?
  split
  · exact .pure _
  · exact Within.now.bind fun _ => .pure _
  · exact .pure _

namespace Schema

/-- A column that is not there is a matter of a query's names. -/
theorem columnIndex_within (s : Schema) (name : String) :
    Except.Within OfQuery (s.columnIndex name) := by
  unfold columnIndex
  split
  · exact .ok _
  · exact .error (.schema nofun)

/-- A column is never at fault for a table that is missing. -/
theorem columnFault?_ne {c : Column} {cause : SchemaError} {table : String}
    (h : columnFault? c = some cause) : cause ≠ .noTable table := by
  rintro rfl
  unfold columnFault? at h
  split at h
  · cases h
  · split at h
    · cases h
    · split at h
      · split at h <;> cases h
      · split at h <;> cases h
      · cases h

/-- Columns are never at fault for a table that is missing. -/
theorem columnsFault?_ne {name table : String} {seen : List String} {columns : List Column}
    {cause : SchemaError} (h : columnsFault? name seen columns = some cause) :
    cause ≠ .noTable table := by
  induction columns generalizing seen with
  | nil => cases h
  | cons c columns ih =>
    unfold columnsFault? at h
    split at h
    · cases h
      nofun
    · split at h
      · rename_i hfault
        cases h
        exact columnFault?_ne hfault
      · exact ih h

/-- A schema is refused for what it says by itself, not for the tables that there are. -/
theorem validate_within (s : Schema) : Except.Within OfQuery s.validate := by
  unfold validate
  split
  · rename_i cause hfault
    refine .error (.schema fun table => ?_)
    unfold fault? at hfault
    split at hfault
    · cases hfault
      nofun
    · split at hfault
      · rename_i hcolumns
        cases hfault
        exact columnsFault?_ne hcolumns
      · split at hfault <;> cases hfault
        nofun
  · exact .ok ()

end Schema

/-! ## Relations -/

namespace Relation

/-- A value that its column cannot hold, and a `NULL` that it may not, are matters of values. -/
theorem prepareValue_within (c : Column) (v : Value) :
    Except.Within OfValues (prepareValue c v) := by
  unfold prepareValue
  split
  · exact .error (.schema nofun nofun nofun)
  · split
    · exact .error (.constraint _)
    · exact .ok _

/-- The values of a row are refused as one of them is. -/
theorem prepareValues_within (columns : List Column) (row : Row) :
    Except.Within OfValues (prepareValues columns row) := by
  induction columns generalizing row with
  | nil => exact .ok []
  | cons c columns ih =>
    cases row with
    | nil => exact .ok []
    | cons v row => exact (prepareValue_within c v).bind fun _ _ => (ih row).bind fun _ _ => .ok _

/-- A row of another width than the table is a matter of values. -/
theorem prepare_within (s : Schema) (row : Row) : Except.Within OfValues (prepare s row) := by
  unfold prepare
  split
  · exact .error (.schema nofun nofun nofun)
  · exact prepareValues_within s.columns row

/-- A key that is there already breaks a constraint. -/
theorem checkUnique_within (r : Relation) (rows : List Row) (replaced : List Nat) :
    Except.Within OfValues (r.checkUnique rows replaced) := by
  unfold checkUnique
  split
  · exact .ok ()
  · dsimp only
    split
    · exact .ok ()
    · exact .error (.constraint _)

/-- What a slot lacks, or must not supply, breaks a constraint. -/
theorem complete_within (c : Column) (slot : Option Value) (n : Numbering) :
    Within OfValues (complete c slot n) := by
  unfold complete
  split
  · split
    · exact .pure _
    · exact .pure _
    · exact .refuse (.constraint _)
  · split
    · exact .pure _
    · refine c.defaultValue?_within.bind fun v => ?_
      split
      · exact .pure _
      · exact .refuse (.constraint _)

/-- A row is completed column by column, and refused as one of its slots is. -/
theorem completeAll_within (columns : List Column) (slots : List (Option Value))
    (n : Numbering) : Within OfValues (completeAll columns slots n) := by
  induction columns generalizing slots n with
  | nil => exact .pure _
  | cons c columns ih =>
    cases slots with
    | nil => exact .pure _
    | cons slot slots =>
      exact (complete_within c slot n).bind fun _ => (ih slots _).bind fun _ => .pure _

/-- A row to insert is refused for its width or for its cells. -/
theorem completeRow_within (s : Schema) (slots : List (Option Value)) (n : Numbering) :
    Within OfValues (completeRow s slots n) := by
  unfold completeRow
  split
  · exact .refuse (.schema nofun nofun nofun)
  · exact (completeAll_within s.columns slots n).bind fun out =>
      (Within.ofExcept (prepare_within s out.1)).bind fun _ => .pure _

/-- **An insert** is refused for its rows or for their keys. -/
theorem insert_within (r : Relation) (slots : List (List (Option Value))) :
    Within OfValues (r.insert slots) := by
  have hrows (n : Numbering) : Within OfValues (completeRows r.schema slots n) := by
    induction slots generalizing n with
    | nil => exact .pure _
    | cons slot slots ih =>
      exact (completeRow_within r.schema slot n).bind fun out => (ih out.2).bind fun _ => .pure _
  exact (hrows _).bind fun out =>
    (Within.ofExcept (r.checkUnique_within out.1 [])).bind fun _ => .pure _

/-- A stamp is never refused. -/
theorem stamp_within {A : Error → Prop} (columns : List Column) (row : Row) :
    Within A (stamp columns row) := by
  induction columns generalizing row with
  | nil => exact .pure []
  | cons c columns ih =>
    cases row with
    | nil => exact .pure []
    | cons v row =>
      unfold stamp
      split
      · exact (Within.now.map _).bind fun _ => (ih row).bind fun _ => .pure _
      · exact (Within.pure v).bind fun _ => (ih row).bind fun _ => .pure _

/-- A changed row is refused for its values, or because its id is not there. -/
theorem change_within (r : Relation) (id : Nat) (row : Row) :
    Within OfValues (r.change id row) := by
  unfold change
  split
  · exact (Within.ofExcept (prepare_within r.schema row)).bind fun row =>
      (stamp_within r.schema.columns row).bind fun _ => .pure _
  · exact .refuse (.internal _)

/-- **An update** is refused for its rows or for their keys. -/
theorem update_within (r : Relation) (changes : List (Nat × Row)) :
    Within OfValues (r.update changes) :=
  (Within.mapM fun e _ => r.change_within e.1 e.2).bind fun _ =>
    (Within.ofExcept (r.checkUnique_within _ _)).bind fun _ => .pure _

end Relation

/-! ## Statements -/

namespace Mutation

variable {s : Schema}

/-- What a tuple supplies is refused as its expression is. -/
theorem slot_within (e : Expression) : Within OfQuery (slot e) := by
  unfold slot
  split
  · exact .pure none
  · exact .refuse (.schema nofun)
  · exact e.evaluate_within.bind fun _ => .pure _

/-- A column that is named twice or not there is a matter of names. -/
theorem place_within (s : Schema) (row : List (Option Value)) (seen : List String)
    (named : List (String × Option Value)) : Except.Within OfQuery (place s row seen named) := by
  induction named generalizing row seen with
  | nil => exact .ok row
  | cons e named ih =>
    unfold place
    split
    · exact .error (.schema nofun)
    · exact (s.columnIndex_within _).bind fun _ _ => ih _ _

/-- A number of values that does not fit the columns is a matter of names. -/
theorem align_within (s : Schema) (columns : List String) (values : List (Option Value)) :
    Except.Within OfQuery (align s columns values) := by
  unfold align alignAll
  split
  · dsimp only
    split
    · exact .ok _
    · split
      · exact .ok _
      · exact .error (.schema nofun)
  · split
    · exact .error (.schema nofun)
    · exact place_within s _ [] _

/-- The slots of an `INSERT` are refused as its tuples are, one after the other. -/
theorem slots_within (s : Schema) (columns : List String) (rows : List (List Expression)) :
    Within OfQuery (slots s columns rows) :=
  .mapM fun _ _ => (Within.mapM fun e _ => slot_within e).bind fun values =>
    .ofExcept (align_within s columns values)

/-- **An `INSERT`** is refused for its columns, its values or a constraint. -/
theorem insert_within (r : Relation) (columns : List String) (rows : List (List Expression)) :
    Within OfRows (insert r columns rows) :=
  ((slots_within r.schema columns rows).mono fun _ => .query).bind fun slots =>
    (r.insert_within slots).mono fun _ => OfValues.rows

/-- The targets of an `UPDATE` are refused for their names, or because one is counted. -/
theorem targets_within (s : Schema) (seen : List Nat) (assignments : List (String × Expression)) :
    Except.Within OfRows (targets s seen assignments) := by
  induction assignments generalizing seen with
  | nil => exact .ok []
  | cons a assignments ih =>
    refine ((s.columnIndex_within a.1).mono fun _ => .query).bind fun i _ => ?_
    split
    · exact .error (.schema nofun)
    · split
      · exact .error (.constraint _)
      · exact (ih _).bind fun _ _ => .ok _

/-- What is assigned is refused as its expression is, or for lack of a default. -/
theorem newValue_within (row : Row) (i : Nat) (e : Expression) :
    Within OfRows (newValue s row i e) := by
  unfold newValue
  split
  · refine (Column.defaultValue?_within _).bind fun v => ?_
    split
    · exact .pure _
    · exact .refuse (.constraint _)
  · exact (Expression.evaluate_within _).mono fun _ => .query

/-- The assignments to a row are refused as one of them is. -/
theorem assign_within (row changed : Row) (assigned : List (Nat × Expression)) :
    Within OfRows (assign s row changed assigned) := by
  induction assigned generalizing changed with
  | nil => exact .pure changed
  | cons a assigned ih => exact (newValue_within row a.1 a.2).bind fun _ => ih _

/-- Rows to change are refused as one of them is, or because the predicate is for one of them. -/
theorem changes_within (p : Expression) (assigned : List (Nat × Expression))
    (entries : List (Nat × Row)) : Within OfRows (changes s p assigned entries) := by
  induction entries with
  | nil => exact .pure []
  | cons e entries ih =>
    refine (p.holds_within.mono fun _ => .query).bind fun found => ?_
    split
    · exact (assign_within e.2 e.2 assigned).bind fun _ => ih.bind fun _ => .pure _
    · exact ih

/-- **An `UPDATE`** is refused for its columns, its values or a constraint. -/
theorem update_within (r : Relation) (p : Expression) (assignments : List (String × Expression)) :
    Within OfRows (update r p assignments) :=
  (Within.ofExcept (targets_within r.schema [] assignments)).bind fun assigned =>
    (changes_within p assigned r.scan).bind fun changed =>
      (r.update_within changed).mono fun _ => OfValues.rows

/-- **A `DELETE`** is refused for its columns. -/
theorem delete_within (r : Relation) (p : Expression) : Within OfQuery (delete r p) := by
  refine Within.bind ?_ fun _ => .pure _
  induction r.scan with
  | nil => exact .pure []
  | cons e entries ih => exact p.holds_within.bind fun _ => ih.bind fun _ => .pure _

end Mutation

end MiniSql
