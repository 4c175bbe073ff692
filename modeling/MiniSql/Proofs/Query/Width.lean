/-
# The width of rows

A set of rows is rectangular if every row has one value for each column. Stored rows are as wide as
their schema, and each step of a query keeps its rows rectangular: a join sets two rows side by side
or pads with one `NULL` for each column, a projection picks as many values as labels
(`Query.run_rectangular`).

A column that resolves among the labels then stands in every row. So a predicate finds its columns,
and a query whose tables can be read is not refused with an internal error
(`Query.run_neverInternal`).
-/

import MiniSql.Proofs.Internal
import MiniSql.Query.Run

namespace MiniSql

open Timed

variable {t t' : Time.Clock}

/-! ## Expressions -/

/-- A reference to no column, or to several, is refused as a matter of the schema. -/
theorem ColumnRef.resolve_neverInternal (c : ColumnRef) (labels : List String) :
    Except.NeverInternal (c.resolve labels) := by
  unfold resolve
  split
  · exact .schema _
  · exact .ok _
  · exact .schema _

namespace Expression

variable {labels : List String} {row : Row}

/-- A column that resolves among the labels has a value in a row of their width. -/
theorem fieldValue_neverInternal (h : row.length = labels.length) (c : ColumnRef) :
    Except.NeverInternal (fieldValue labels row c) := by
  refine (c.resolve_neverInternal labels).bind fun i hi => ?_
  have hlt : i < row.length := h ▸ ColumnRef.resolve_lt hi
  rw [List.getElem?_eq_getElem hlt]
  exact .ok _

/-- **An expression is evaluated** without an internal error in a row of the width of its labels. -/
theorem evaluate_neverInternal (h : row.length = labels.length) (e : Expression) :
    NeverInternal (e.evaluate labels row) := by
  induction e with
  | constant v => exact .pure v
  | field c => exact NeverInternal.ofExcept.2 (fieldValue_neverInternal h c)
  | currentTime => exact NeverInternal.now.bind fun _ i _ _ => .pure _
  | default => exact .refuse_schema _
  | compare sign left right ihl ihr =>
    exact ihl.bind fun _ a _ _ => ihr.bind fun _ b _ _ => .pure _
  | isNull operand negated ih => exact ih.bind fun _ v _ _ => .pure _
  | and left right ihl ihr =>
    refine ihl.bind fun _ a _ _ => ?_
    split
    · exact ihr.bind fun _ b _ _ => .pure _
    · exact .pure _
  | or left right ihl ihr =>
    refine ihl.bind fun _ a _ _ => ?_
    split
    · exact .pure _
    · exact ihr.bind fun _ b _ _ => .pure _

/-- A predicate on a row as wide as its labels never fails internally. -/
theorem holds_neverInternal (h : row.length = labels.length) (e : Expression) :
    NeverInternal (e.holds labels row) :=
  (evaluate_neverInternal h e).bind fun _ _ _ _ => .pure _

end Expression

namespace Rowset

/-- Every row has one value for each column. -/
def Rectangular (s : Rowset) : Prop := ∀ row ∈ s.rows, row.length = s.columns.length

variable {s l r : Rowset}

/-! ## Each step keeps the width -/

/-- Rows that are kept are among the given ones. -/
theorem mem_of_keep {test : Row → Timed Bool} {rows kept : List Row}
    (h : Gives (keep test rows) t kept t') : ∀ row ∈ kept, row ∈ rows := by
  induction rows generalizing t kept t' with
  | nil =>
    obtain ⟨rfl, -⟩ := gives_pure.1 h
    simp
  | cons row rows ih =>
    simp only [keep, gives_bind, gives_pure] at h
    obtain ⟨b, _, -, rest, _, hrest, rfl, -⟩ := h
    have hmem := ih hrest
    intro row' hrow'
    split at hrow'
    · rcases List.mem_cons.1 hrow' with rfl | hrow'
      · exact List.mem_cons_self
      · exact List.mem_cons_of_mem _ (hmem row' hrow')
    · exact List.mem_cons_of_mem _ (hmem row' hrow')

/-- Filtered rows are as wide as before. -/
theorem Rectangular.filter {p : Expression} {s' : Rowset} (hs : s.Rectangular)
    (h : Gives (s.filter p) t s' t') : s'.Rectangular := by
  simp only [Rowset.filter, gives_bind, gives_pure] at h
  obtain ⟨kept, _, hkept, rfl, -⟩ := h
  exact fun row hrow => hs row (mem_of_keep hkept row hrow)

/-- The rows behind the first ones are as wide as before. -/
theorem Rectangular.drop (hs : s.Rectangular) (n : Nat) : (s.drop n).Rectangular :=
  fun row hrow => hs row (List.mem_of_mem_drop hrow)

/-- The first rows are as wide as before. -/
theorem Rectangular.take (hs : s.Rectangular) (n : Nat) : (s.take n).Rectangular :=
  fun row hrow => hs row (List.mem_of_mem_take hrow)

/-- Sorted rows are as wide as before. -/
theorem Rectangular.sort {keys : List (ColumnRef × Direction)} {s' : Rowset} (hs : s.Rectangular)
    (h : s.sort keys = .ok s') : s'.Rectangular := by
  obtain ⟨positions, -, h⟩ := Except.bind_eq_ok.1 h
  cases h
  exact fun row hrow => hs row (List.mem_mergeSort.1 hrow)

/-- A row on the left is followed by one on the right, or by as many `NULL`s. -/
theorem length_of_pairAll {test : Row → Timed Bool} {outer : Bool} {padding : Row} {width : Nat}
    {right lefts rows : List Row} (hpadding : padding.length = width)
    (hright : ∀ row ∈ right, row.length = width) {n : Nat} (hlefts : ∀ row ∈ lefts, row.length = n)
    (h : Gives (pairAll test outer padding right lefts) t rows t') :
    ∀ row ∈ rows, row.length = n + width := by
  induction lefts generalizing t rows t' with
  | nil =>
    obtain ⟨rfl, -⟩ := gives_pure.1 h
    simp
  | cons left lefts ih =>
    simp only [pairAll, pair, gives_bind, gives_pure] at h
    obtain ⟨found, _, hfound, rest, _, hrest, rfl, -⟩ := h
    obtain ⟨hleft, hlefts⟩ := List.forall_mem_cons.1 hlefts
    have hpaired : ∀ row ∈ found, row.length = n + width := by
      intro row hrow
      obtain ⟨other, hother, rfl⟩ := List.mem_map.1 (mem_of_keep hfound row hrow)
      rw [List.length_append, hleft, hright other hother]
    intro row hrow
    rcases List.mem_append.1 hrow with hrow | hrow
    · unfold unpaired at hrow
      split at hrow
      · obtain rfl := List.mem_singleton.1 hrow
        rw [List.length_append, hleft, hpadding]
      · exact hpaired row hrow
    · exact ih hlefts hrest row hrow

/-- **Joined rows** are as wide as both sides together. -/
theorem Rectangular.join {p : Option Expression} {outer : Bool} {s' : Rowset}
    (hl : l.Rectangular) (hr : r.Rectangular) (h : Gives (l.join r p outer) t s' t') :
    s'.Rectangular := by
  simp only [Rowset.join, gives_bind, gives_pure] at h
  obtain ⟨rows, _, hrows, rfl, -⟩ := h
  intro row hrow
  show row.length = (l.columns ++ r.columns).length
  rw [List.length_append]
  exact length_of_pairAll (by simp) hr hl hrows row hrow

/-- What is shown has as many values as labels, whatever it is taken from. -/
theorem rectangular_project {items : List SelectItem} {s' : Rowset}
    (h : s.project items = .ok s') : s'.Rectangular := by
  obtain ⟨picked, -, h⟩ := Except.bind_eq_ok.1 h
  cases h
  intro row hrow
  obtain ⟨row, -, rfl⟩ := List.mem_map.1 hrow
  exact (List.length_map _).trans (List.length_map _).symm

/-- An aggregation gives a row as wide as its calls. -/
theorem rectangular_aggregate {calls : List AggregateCall} {s' : Rowset}
    (h : s.aggregate calls = .ok s') : s'.Rectangular := by
  obtain ⟨values, hvalues, h⟩ := Except.bind_eq_ok.1 h
  cases h
  intro row hrow
  obtain rfl := List.mem_singleton.1 hrow
  show row.length = (calls.map (·.text)).length
  rw [List.length_map, (Except.mapM_eq_ok.1 hvalues).length_eq]

/-! ## No step is refused with an internal error -/

/-- Testing rows never fails internally if no test does. -/
theorem keep_neverInternal {test : Row → Timed Bool} {rows : List Row}
    (h : ∀ row ∈ rows, NeverInternal (test row)) : NeverInternal (keep test rows) := by
  induction rows with
  | nil => exact .pure []
  | cons row rows ih =>
    obtain ⟨hrow, hrows⟩ := List.forall_mem_cons.1 h
    exact hrow.bind fun _ b _ _ => (ih hrows).bind fun _ rest _ _ => .pure _

/-- Filtering rows as wide as their labels never fails internally. -/
theorem filter_neverInternal (hs : s.Rectangular) (p : Expression) :
    NeverInternal (s.filter p) :=
  (keep_neverInternal fun row hrow => p.holds_neverInternal (hs row hrow)).bind
    fun _ _ _ _ => .pure _

/-- Pairing rows never fails internally if no test of a pair does. -/
theorem pairAll_neverInternal {test : Row → Timed Bool} {outer : Bool} {padding : Row}
    {right lefts : List Row} (h : ∀ l ∈ lefts, ∀ r ∈ right, NeverInternal (test (l ++ r))) :
    NeverInternal (pairAll test outer padding right lefts) := by
  induction lefts with
  | nil => exact .pure []
  | cons left lefts ih =>
    obtain ⟨hleft, hlefts⟩ := List.forall_mem_cons.1 h
    have hpair : NeverInternal (pair test left right) := keep_neverInternal fun row hrow => by
      obtain ⟨other, hother, rfl⟩ := List.mem_map.1 hrow
      exact hleft other hother
    exact hpair.bind fun _ _ _ _ => (ih hlefts).bind fun _ _ _ _ => .pure _

/-- **Joining** rows as wide as their labels never fails internally. -/
theorem join_neverInternal (hl : l.Rectangular) (hr : r.Rectangular) (p : Option Expression)
    (outer : Bool) : NeverInternal (l.join r p outer) := by
  refine (pairAll_neverInternal fun left hleft right hright => ?_).bind fun _ _ _ _ => .pure _
  cases p with
  | none => exact .pure true
  | some p =>
    refine p.holds_neverInternal ?_
    rw [List.length_append, List.length_append, hl left hleft, hr right hright]

/-- Sorting never fails internally. -/
theorem sort_neverInternal (s : Rowset) (keys : List (ColumnRef × Direction)) :
    Except.NeverInternal (s.sort keys) :=
  (Except.NeverInternal.mapM fun key _ =>
    (key.1.resolve_neverInternal s.columns).bind fun _ _ => .ok _).bind fun _ _ => .ok _

/-- Choosing columns never fails internally. -/
theorem project_neverInternal (s : Rowset) (items : List SelectItem) :
    Except.NeverInternal (s.project items) := by
  refine (Except.NeverInternal.mapM fun item _ => ?_).bind fun _ _ => .ok _
  cases item with
  | all => exact .ok _
  | allOf table =>
    simp only [pick]
    split
    · exact .schema _
    · exact .ok _
  | column c => exact (c.resolve_neverInternal s.columns).bind fun _ _ => .ok _

/-- A function over a column refuses a value as a matter of the schema. -/
theorem value_neverInternal (f : Aggregate) (values : List Value) :
    Except.NeverInternal (f.value values) := by
  cases f with
  | count => exact .ok _
  | min => exact .ok _
  | max => exact .ok _
  | sum =>
    refine (Except.NeverInternal.foldlM (P := fun _ => True) (fun total v _ _ => ?_) trivial).1.bind
      fun _ _ => .ok _
    refine ⟨?_, fun _ _ => trivial⟩
    unfold Aggregate.addTo
    split <;> first | exact .ok _ | exact .schema _
  | avg =>
    refine (Except.NeverInternal.foldlM (P := fun _ => True) (fun total v _ _ => ?_) trivial).1.bind
      fun _ _ => .ok _
    refine ⟨?_, fun _ _ => trivial⟩
    unfold Aggregate.averageStep
    split <;> first | exact .ok _ | exact .schema _

/-- An aggregation never fails internally. -/
theorem aggregate_neverInternal (s : Rowset) (calls : List AggregateCall) :
    Except.NeverInternal (s.aggregate calls) := by
  refine (Except.NeverInternal.mapM fun call _ => ?_).bind fun _ _ => .ok _
  refine Except.NeverInternal.bind ?_ fun values _ => value_neverInternal call.function values
  unfold argumentValues
  split
  · exact (ColumnRef.resolve_neverInternal _ s.columns).bind fun _ _ => .ok _
  · exact .ok _

end Rowset

/-! ## Queries -/

namespace Query

variable {table : String → Except Error Relation}

/-- **Every row that a step of a query works on has one value for each column.** -/
theorem run_rectangular (htable : ∀ name r, table name = .ok r → r.rowset.Rectangular) {q : Query}
    {s : Rowset} (h : Gives (q.run table) t s t') : s.Rectangular := by
  induction q generalizing t s t' with
  | scan name =>
    simp only [run, gives_bind, gives_ofExcept, gives_pure] at h
    obtain ⟨r, _, ⟨hr, -⟩, rfl, -⟩ := h
    exact htable name r hr
  | join left right p outer ihl ihr =>
    simp only [run, gives_bind] at h
    obtain ⟨l, _, hl, r, _, hr, h⟩ := h
    exact (ihl hl).join (ihr hr) h
  | filter source p ih =>
    obtain ⟨mid, _, hmid, h⟩ := gives_bind.1 h
    exact (ih hmid).filter h
  | order source keys ih =>
    obtain ⟨mid, _, hmid, h⟩ := gives_bind.1 h
    exact (ih hmid).sort (gives_ofExcept.1 h).1
  | offset source n ih =>
    obtain ⟨mid, _, hmid, h⟩ := gives_bind.1 h
    obtain ⟨rfl, -⟩ := gives_pure.1 h
    exact (ih hmid).drop n
  | limit source n ih =>
    obtain ⟨mid, _, hmid, h⟩ := gives_bind.1 h
    obtain ⟨rfl, -⟩ := gives_pure.1 h
    exact (ih hmid).take n
  | projection source items ih =>
    obtain ⟨mid, _, -, h⟩ := gives_bind.1 h
    exact Rowset.rectangular_project (gives_ofExcept.1 h).1
  | aggregate source calls ih =>
    obtain ⟨mid, _, -, h⟩ := gives_bind.1 h
    exact Rowset.rectangular_aggregate (gives_ofExcept.1 h).1

/-- **A query whose tables can be read** is not refused with an internal error. -/
theorem run_neverInternal (htable : ∀ name r, table name = .ok r → r.rowset.Rectangular) {q : Query}
    (hread : ∀ name ∈ q.tables, ∃ r, table name = .ok r) : NeverInternal (q.run table) := by
  induction q with
  | scan name =>
    obtain ⟨r, hr⟩ := hread name (by simp [tables])
    refine NeverInternal.bind ?_ fun _ _ _ _ => .pure _
    rw [hr]
    exact NeverInternal.ofExcept.2 (.ok r)
  | join left right p outer ihl ihr =>
    refine (ihl fun name h => hread name (by simp [tables, h])).bind fun _ l _ hl => ?_
    refine (ihr fun name h => hread name (by simp [tables, h])).bind fun _ r _ hr => ?_
    exact Rowset.join_neverInternal (run_rectangular htable hl) (run_rectangular htable hr) p outer
  | filter source p ih =>
    refine (ih hread).bind fun _ s _ hs => ?_
    exact Rowset.filter_neverInternal (run_rectangular htable hs) p
  | order source keys ih =>
    exact (ih hread).bind fun _ s _ _ => NeverInternal.ofExcept.2 (s.sort_neverInternal keys)
  | offset source n ih => exact (ih hread).bind fun _ _ _ _ => .pure _
  | limit source n ih => exact (ih hread).bind fun _ _ _ _ => .pure _
  | projection source items ih =>
    exact (ih hread).bind fun _ s _ _ => NeverInternal.ofExcept.2 (s.project_neverInternal items)
  | aggregate source calls ih =>
    exact (ih hread).bind fun _ s _ _ => NeverInternal.ofExcept.2 (s.aggregate_neverInternal calls)

end Query

end MiniSql
