/-
# Planning an insert

The tree of an `INSERT` holds the table, the columns that it names, if it names any, its tuples, and
the column that it returns, if there is one. Its plan has the values of the tuples, with the
arguments in place (`Plan.ofText_insertInto`), and where the table is there it inserts them
(`Plan.run_insert`).

What matters of the text and its arguments is the values that they come to, or are refused with
(`Statement.Inserts`).
-/

import MiniSql.Proofs.Plan.Binding
import MiniSql.Proofs.Plan.Filtered
import MiniSql.Session

namespace MiniSql

open Timed
open Grammar (Tree)

namespace Except

variable {ε α β : Type}

/-- A list that is related by a function is its image. -/
theorem forall₂_eq_map {f : α → β} {l : List β} {as : List α} :
    List.Forall₂ (fun b a => b = f a) l as ↔ l = as.map f := by
  rw [← List.forall₂_eq_eq_eq, List.forall₂_map_right_iff]

/-- A pass over results gives what all of them give. -/
theorem mapM_id_eq_ok {l : List (Except ε α)} {as : List α} :
    l.mapM id = .ok as ↔ l = as.map .ok := mapM_eq_ok.trans forall₂_eq_map

end Except

/-! ## Trees -/

namespace Grammar.Tree

/-- `(values)` -/
def tuple (values : List Tree) : Tree := ⟨.openParen, "(", values⟩

/-- `INSERT INTO table (columns) VALUES tuples RETURNING column`, where no columns are named if
there are none. -/
def insertInto (name : String) (columns : List String) (tuples : List (List Tree))
    (returning : Option Tree) : Tree :=
  .word .INSERT (.word .INTO [.table name (columns.map (.leaf .ident))] ::
    .word .VALUES (tuples.map tuple) ::
      returning.toList.map fun column => .word .RETURNING [column])

end Grammar.Tree

variable {name sql : String} {columns : List String} {tuples : List (List Tree)}
  {returning : Option Tree} {arguments : List Value} {strict : Bool}

namespace Planning

/-- The values of some tuples. -/
def values (arguments : List Value) (tuples : List (List Tree)) :
    Except Error (List (List Expression)) :=
  tuples.mapM fun tuple => tuple.mapM (value arguments)

/-- An insertion is planned with its values and its returned column. -/
theorem statement_insertInto : statement arguments (.insertInto name columns tuples returning) =
    (do return .insert name columns (← values arguments tuples) (returning.map columnRef)) := by
  have hcolumns : (columns.map (Tree.leaf .ident)).map (·.lexeme) = columns := by
    rw [List.map_map]
    exact List.map_id columns
  have hvalues : ((tuples.map Tree.tuple).mapM fun t => t.children.mapM (value arguments)) =
      values arguments tuples := Except.mapM_map_congr fun _ _ => rfl
  have hinsert : statement arguments (.insertInto name columns tuples returning) =
      (do
        let rows ← (tuples.map Tree.tuple).mapM fun t => t.children.mapM (value arguments)
        return .insert name ((columns.map (Tree.leaf .ident)).map (·.lexeme)) rows
          (returning.map columnRef)) := by
    cases returning <;> rfl
  rw [hinsert, hcolumns, hvalues]

end Planning

namespace Plan

/-- **The plan of an `INSERT`** has the values of its tuples, if its arguments fit. -/
theorem ofText_insertInto
    (h : Grammar.parse sql = .ok (.insertInto name columns tuples returning)) :
    ofText sql arguments strict = (do
      Arguments.check (.insertInto name columns tuples returning) arguments.length strict
      return .insert name columns (← Planning.values arguments tuples)
        (returning.map Planning.columnRef)) := by
  rw [ofText, h]
  show (do
    Arguments.check (.insertInto name columns tuples returning) arguments.length strict
    Planning.statement arguments (.insertInto name columns tuples returning)) = _
  rw [Planning.statement_insertInto]

variable {c : Catalog} {r : Relation} {start : Int64} {rows : List (List Expression)}
  {column : Option ColumnRef}

/-- An insertion is carried out on its relation. -/
theorem run_insert (hr : c.tables.get? name = some r) :
    (insert name columns rows column).run start c =
    (do
      let (r', stored) ← Mutation.insert r columns rows
      return (c.put name r', Answer.ofInsert r.schema column stored)) := by
  obtain ⟨hgrant, hwrite⟩ := c.write_granted hr
  rw [run, locks, hgrant]
  show carryOut start c (insert name columns rows column) = _
  simp only [carryOut, locks, hwrite]
  rfl

end Plan

/-! ## Values -/

/-- The statement is an `INSERT` of these values, one list for each tuple. Its arguments fit. -/
def Statement.Inserts (st : Statement) (strict : Bool) (name : String) (columns : List String)
    (returning : Option Tree) (values : List (List (Except Error Expression))) : Prop :=
  ∃ tuples, Grammar.parse st.sql = .ok (.insertInto name columns tuples returning) ∧
    Arguments.check (.insertInto name columns tuples returning) st.arguments.length strict =
      .ok () ∧
    values = tuples.map fun tuple => tuple.map (Planning.value st.arguments)

/-- None of the values that are planned reads the clock. -/
def Planning.Untimed (values : List (List (Except Error Expression))) : Prop :=
  ∀ v ∈ values, ∀ e, .ok e ∈ v → e.readsClock = false

/-- Expressions are untimed if none reads the clock. -/
theorem Planning.untimed_map {tuples : List (List Expression)} :
    Untimed (tuples.map (·.map .ok)) ↔ ∀ tuple ∈ tuples, ∀ e ∈ tuple, e.readsClock = false := by
  simp [Untimed]

namespace Statement.Inserts

variable {st : Statement} {values : List (List (Except Error Expression))} {plan : Plan}

/-- The plan of the statement has the values. -/
theorem ofText (h : st.Inserts strict name columns returning values) :
    Plan.ofText st.sql st.arguments strict = (do
      let rows ← values.mapM fun v => v.mapM id
      return .insert name columns rows (returning.map Planning.columnRef)) := by
  obtain ⟨tuples, hparse, hcheck, rfl⟩ := h
  have hvalues : (tuples.map fun tuple => tuple.map (Planning.value st.arguments)).mapM
      (fun v => v.mapM id) = Planning.values st.arguments tuples :=
    Except.mapM_map_congr fun tuple _ => Except.mapM_map_congr fun _ _ => rfl
  rw [Plan.ofText_insertInto hparse, hcheck, hvalues]
  rfl

/-- The statement has a plan if none of the values is refused. -/
theorem ofText_eq_ok (h : st.Inserts strict name columns returning values) :
    Plan.ofText st.sql st.arguments strict = .ok plan ↔ ∃ tuples : List (List Expression),
      values = tuples.map (·.map .ok) ∧
        plan = .insert name columns tuples (returning.map Planning.columnRef) := by
  rw [h.ofText, Except.bind_eq_ok]
  refine exists_congr fun tuples => and_congr ?_ ⟨fun h => (Except.ok.inj h).symm, fun h => h ▸ rfl⟩
  rw [Except.mapM_eq_ok, ← Except.forall₂_eq_map]
  simp only [Except.mapM_id_eq_ok]

end Statement.Inserts

end MiniSql
