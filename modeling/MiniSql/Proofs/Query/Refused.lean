/-
# What a query is refused with

A query whose tables can be read is refused for a column that it names or for a value that it meets,
whatever its steps are and whatever the rows (`Query.run_within`): no step of it looks for a table or
for an argument.
-/

import MiniSql.Proofs.Refused
import MiniSql.Query.Run

namespace MiniSql

open Error Timed

/-- A column is refused as a query may be, for its name. -/
theorem ColumnRef.resolve_within (c : ColumnRef) (labels : List String) :
    Except.Within OfQuery (c.resolve labels) := by
  unfold resolve
  split
  · exact .error (.schema nofun)
  · exact .ok _
  · exact .error (.schema nofun)

namespace Expression

variable {labels : List String} {row : Row}

/-- The value of a column is refused as the column is. -/
theorem fieldValue_within (c : ColumnRef) :
    Except.Within OfQuery (fieldValue labels row c) := by
  refine (c.resolve_within labels).bind fun i _ => ?_
  split
  · exact .ok _
  · exact .error (.internal _)

/-- **An expression** is refused for a column of it. -/
theorem evaluate_within (e : Expression) : Within OfQuery (e.evaluate labels row) := by
  induction e with
  | constant v => exact .pure v
  | field c => exact .ofExcept (fieldValue_within c)
  | currentTime => exact Within.now.bind fun _ => .pure _
  | default => exact .refuse (.schema nofun)
  | compare sign left right ihl ihr => exact ihl.bind fun _ => ihr.bind fun _ => .pure _
  | isNull operand negated ih => exact ih.bind fun _ => .pure _
  | and left right ihl ihr =>
    refine ihl.bind fun a => ?_
    split
    · exact ihr.bind fun _ => .pure _
    · exact .pure _
  | or left right ihl ihr =>
    refine ihl.bind fun a => ?_
    split
    · exact .pure _
    · exact ihr.bind fun _ => .pure _

/-- A predicate is refused as its expression is. -/
theorem holds_within (e : Expression) : Within OfQuery (e.holds labels row) :=
  e.evaluate_within.bind fun _ => .pure _

end Expression

namespace Rowset

/-- Testing rows is refused as a test is. -/
theorem keep_within {A : Error → Prop} {test : Row → Timed Bool} (h : ∀ row, Within A (test row))
    (rows : List Row) : Within A (keep test rows) := by
  induction rows with
  | nil => exact .pure []
  | cons row rows ih => exact (h row).bind fun _ => ih.bind fun _ => .pure _

/-- Filtering is refused as the predicate is for a row. -/
theorem filter_within (s : Rowset) (p : Expression) : Within OfQuery (s.filter p) :=
  (keep_within (fun _ => p.holds_within) s.rows).bind fun _ => .pure _

/-- Joining is refused as the condition is for a pair of rows. -/
theorem join_within (l r : Rowset) (p : Option Expression) (outer : Bool) :
    Within OfQuery (l.join r p outer) := by
  have htest (row : Row) : Within OfQuery (admits p (l.columns ++ r.columns) row) := by
    cases p with
    | none => exact .pure true
    | some p => exact p.holds_within
  refine Within.bind ?_ fun _ => .pure _
  induction l.rows with
  | nil => exact .pure []
  | cons left lefts ih => exact (keep_within htest _).bind fun _ => ih.bind fun _ => .pure _

/-- The keys of an order are refused as one of their columns is. -/
theorem resolveKeys_within (labels : List String) (keys : List (ColumnRef × Direction)) :
    Except.Within OfQuery (resolveKeys labels keys) :=
  .mapM fun key _ => (key.1.resolve_within labels).bind fun _ _ => .ok _

/-- Sorting is refused as its keys are. -/
theorem sort_within (s : Rowset) (keys : List (ColumnRef × Direction)) :
    Except.Within OfQuery (s.sort keys) :=
  (resolveKeys_within s.columns keys).bind fun _ _ => .ok _

/-- An item of a selection is refused for the names in it. -/
theorem pick_within (labels : List String) (item : SelectItem) :
    Except.Within OfQuery (pick labels item) := by
  cases item with
  | all => exact .ok _
  | allOf table =>
    unfold pick
    dsimp only
    split
    · exact .error (.schema nofun)
    · exact .ok _
  | column c => exact (c.resolve_within labels).bind fun _ _ => .ok _

/-- Choosing columns is refused as one of the items is. -/
theorem project_within (s : Rowset) (items : List SelectItem) :
    Except.Within OfQuery (s.project items) :=
  (Except.Within.mapM fun item _ => pick_within s.columns item).bind fun _ _ => .ok _

/-- A function is refused for a value that it cannot add up. -/
theorem value_within {A : Error → Prop} (hsum : ∀ v, A (.schema (.notSummable v)))
    (havg : ∀ v, A (.schema (.notAveragable v))) (f : Aggregate) (values : List Value) :
    Except.Within A (f.value values) := by
  cases f with
  | count => exact .ok _
  | min => exact .ok _
  | max => exact .ok _
  | sum =>
    refine (Except.Within.foldlM fun total v _ => ?_).bind fun _ _ => .ok _
    unfold Aggregate.addTo
    split <;> first | exact .ok _ | exact .error (hsum _)
  | avg =>
    refine (Except.Within.foldlM fun total v _ => ?_).bind fun _ _ => .ok _
    unfold Aggregate.averageStep
    split <;> first | exact .ok _ | exact .error (havg _)

/-- The arguments of an aggregate are refused as its column is. -/
theorem argumentValues_within (s : Rowset) (call : AggregateCall) :
    Except.Within OfQuery (s.argumentValues call) := by
  unfold argumentValues
  split
  · exact (ColumnRef.resolve_within _ s.columns).bind fun _ _ => .ok _
  · exact .ok _

/-- An aggregation is refused as one of its calls is. -/
theorem aggregate_within (s : Rowset) (calls : List AggregateCall) :
    Except.Within OfQuery (s.aggregate calls) :=
  (Except.Within.mapM fun call _ =>
    (s.argumentValues_within call).bind fun values _ =>
      value_within (fun _ => .schema nofun) (fun _ => .schema nofun) call.function values).bind
        fun _ _ => .ok _

end Rowset

/-- **A query is refused for its names and its values**, if its tables can be read. -/
theorem Query.run_within {table : String → Except Error Relation} {q : Query}
    (hread : ∀ name ∈ q.tables, ∃ r, table name = .ok r) : Within OfQuery (q.run table) := by
  induction q with
  | scan name =>
    obtain ⟨r, hr⟩ := hread name (List.mem_singleton_self name)
    refine Within.bind ?_ fun _ => .pure _
    rw [hr]
    exact .ofExcept (.ok r)
  | join left right p outer ihl ihr =>
    exact (ihl fun name h => hread name (List.mem_append_left _ h)).bind fun l =>
      (ihr fun name h => hread name (List.mem_append_right _ h)).bind fun r =>
        l.join_within r p outer
  | filter source p ih => exact (ih hread).bind fun s => s.filter_within p
  | order source keys ih => exact (ih hread).bind fun s => .ofExcept (s.sort_within keys)
  | offset source n ih => exact (ih hread).bind fun _ => .pure _
  | limit source n ih => exact (ih hread).bind fun _ => .pure _
  | projection source items ih => exact (ih hread).bind fun s => .ofExcept (s.project_within items)
  | aggregate source calls ih => exact (ih hread).bind fun s => .ofExcept (s.aggregate_within calls)

end MiniSql
