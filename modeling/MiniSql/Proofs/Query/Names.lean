/-
# The names of a query

A query resolves some of its names once and others row by row.

| name | resolved | in the scope of |
| --- | --- | --- |
| `ORDER BY`, an item, an argument of a function | once | all tables |
| `ON` | for each pair that is come to | the tables up to its own |
| `WHERE` | for each row that is come to | all tables |

So a query with a wrong name of the first kind is refused whatever the rows are
(`Query.Shows.choosesRight`). With right ones it is refused for a reference exactly where the
evaluation of an `ON` or a `WHERE` comes to one that is wrong (`Query.Shows.fails_run`), and not at
all where there are no rows (`Query.Shows.gives_empty`).
-/

import MiniSql.Proofs.Query.Reaches
import MiniSql.Proofs.Query.Stars
import MiniSql.Proofs.Reference.Scope

namespace MiniSql

open Error Timed

/-! ## What is resolved once -/

/-- Mapping a list succeeds if it does for each element. -/
theorem Except.exists_mapM_eq_ok {ε α β : Type} {f : α → Except ε β} {l : List α} :
    (∃ bs, l.mapM f = .ok bs) ↔ ∀ a ∈ l, ∃ b, f a = .ok b := by
  simp only [Except.mapM_eq_ok]
  induction l with
  | nil => simp
  | cons a l ih =>
    simp only [List.forall₂_cons_left_iff, List.forall_mem_cons, ← ih]
    constructor
    · rintro ⟨_, b, bs, hb, hbs, -⟩
      exact ⟨⟨b, hb⟩, bs, hbs⟩
    · rintro ⟨⟨b, hb⟩, bs, hbs⟩
      exact ⟨_, b, bs, hb, hbs, rfl⟩

/-- What is made of a result is there if the result is. -/
theorem Except.exists_bind_ok {ε α β : Type} {x : Except ε α} {f : α → β} :
    (∃ b, (x >>= fun a => pure (f a)) = .ok b) ↔ ∃ a, x = .ok a := by
  cases x with
  | error e => exact ⟨fun ⟨_, h⟩ => (nomatch h), fun ⟨_, h⟩ => (nomatch h)⟩
  | ok a => exact ⟨fun _ => ⟨a, rfl⟩, fun _ => ⟨f a, rfl⟩⟩

/-- The item stands for columns of the scope. -/
def SelectItem.Right (scope : Scope) : SelectItem → Prop
  | all => True
  | allOf table => ∃ pair ∈ scope, upToStop pair.1 = table
  | column c => c.Right scope

/-- The column that the call is for, if there is one, is right. -/
def AggregateCall.Right (scope : Scope) (call : AggregateCall) : Prop :=
  ∀ c, call.argument = some c → c.Right scope

namespace Rowset

variable {s : Rowset} {scope : Scope} {x : Error}

/-- No positions are found if no label has the table. -/
theorem positionsOf_eq_nil_iff {table : String} {start : Nat} {labels : List String} :
    positionsOf table start labels = [] ↔ ∀ l ∈ labels, labelTable l ≠ table := by
  induction labels generalizing start with
  | nil => simp [positionsOf]
  | cons l labels ih =>
    rw [positionsOf, List.forall_mem_cons]
    split
    · simp [*]
    · simp [*]

/-- An item is picked exactly if its names are right. -/
theorem pick_ok_iff {item : SelectItem} :
    (∃ is, pick scope.labels item = .ok is) ↔ item.Right scope := by
  cases item with
  | all => exact ⟨fun _ => trivial, fun _ => ⟨_, rfl⟩⟩
  | allOf table =>
    have hlabels : positionsOf table 0 scope.labels = [] ↔
        ∀ pair ∈ scope, upToStop pair.1 ≠ table := by
      rw [positionsOf_eq_nil_iff, Scope.labels, List.forall_mem_map]
      simp only [labelTable_label]
    have hright : SelectItem.Right scope (.allOf table) ↔
        positionsOf table 0 scope.labels ≠ [] := by
      rw [Ne, hlabels]
      simp [SelectItem.Right]
    rw [hright, pick]
    split
    · rename_i hnone
      simp [hnone]
    · rename_i hsome
      exact ⟨fun _ => hsome, fun _ => ⟨_, rfl⟩⟩
  | column c => exact Except.exists_bind_ok.trans ColumnRef.resolve_ok_iff

/-- Rows are sorted exactly if the names of the keys are right. -/
theorem sort_ok_iff (hs : s.columns = scope.labels) {keys : List (ColumnRef × Direction)} :
    (∃ s', s.sort keys = .ok s') ↔ ∀ key ∈ keys, key.1.Right scope := by
  refine Except.exists_bind_ok.trans ?_
  rw [hs, resolveKeys, Except.exists_mapM_eq_ok]
  exact forall₂_congr fun key _ => Except.exists_bind_ok.trans ColumnRef.resolve_ok_iff

/-- Columns are chosen exactly if the names of the items are right. -/
theorem project_ok_iff (hs : s.columns = scope.labels) {items : List SelectItem} :
    (∃ s', s.project items = .ok s') ↔ ∀ item ∈ items, item.Right scope := by
  refine Except.exists_bind_ok.trans ?_
  rw [hs, Except.exists_mapM_eq_ok]
  exact forall₂_congr fun item _ => pick_ok_iff

/-- The arguments of a call are found exactly if its name is right. -/
theorem argumentValues_ok_iff (hs : s.columns = scope.labels) {call : AggregateCall} :
    (∃ vs, s.argumentValues call = .ok vs) ↔ call.Right scope := by
  unfold argumentValues AggregateCall.Right
  split
  · rename_i c hc
    refine Except.exists_bind_ok.trans ?_
    rw [hs, ColumnRef.resolve_ok_iff, hc]
    simp
  · rename_i hc
    rw [hc]
    simp

/-- The names of calls that were made are right. -/
theorem right_of_aggregate (hs : s.columns = scope.labels) {calls : List AggregateCall}
    {s' : Rowset} (h : s.aggregate calls = .ok s') : ∀ call ∈ calls, call.Right scope := by
  obtain ⟨values, hvalues, -⟩ := Except.bind_eq_ok.1 h
  intro call hcall
  obtain ⟨v, hv⟩ := Except.exists_mapM_eq_ok.1 ⟨values, hvalues⟩ call hcall
  obtain ⟨vs, hvs, -⟩ := Except.bind_eq_ok.1 hv
  exact (argumentValues_ok_iff hs).1 ⟨vs, hvs⟩

/-- With the right columns a function is refused for its values alone. -/
theorem aggregate_within_values (hs : s.columns = scope.labels) {calls : List AggregateCall}
    (h : ∀ call ∈ calls, call.Right scope) : Except.Within OfValues (s.aggregate calls) := by
  refine (Except.Within.mapM fun call hcall => ?_).bind fun _ _ => .ok _
  obtain ⟨vs, hvs⟩ := (argumentValues_ok_iff hs).2 (h call hcall)
  rw [callValue, hvs]
  exact value_within (fun _ => .schema nofun nofun nofun) (fun _ => .schema nofun nofun nofun) _ _

/-- Every function has a value where there are no rows. -/
theorem aggregate_empty (hs : s.columns = scope.labels) (hrows : s.rows = [])
    {calls : List AggregateCall} (h : ∀ call ∈ calls, call.Right scope) :
    ∃ s', s.aggregate calls = .ok s' := by
  refine Except.exists_bind_ok.2 (Except.exists_mapM_eq_ok.2 fun call hcall => ?_)
  obtain ⟨vs, hvs⟩ := (argumentValues_ok_iff hs).2 (h call hcall)
  have hnil : vs = [] := by
    unfold argumentValues at hvs
    split at hvs
    · obtain ⟨i, -, hvs⟩ := Except.bind_eq_ok.1 hvs
      cases hvs
      simp [Rowset.column, hrows]
    · cases hvs
      simp [hrows]
  rw [callValue, hvs, hnil]
  cases call.function <;> exact ⟨_, rfl⟩

end Rowset

namespace Query

variable {schema : String → Schema} {table : String → Except Error Relation} {q : Query}
  {x : Error} {c : ColumnRef} {t t' now : Time.Clock} {s : Rowset} {e : Expression} {row : Row}
  {scope : Scope}

/-- The columns of the tables that the query scans, from left to right. -/
def columns (schema : String → Schema) (q : Query) : Scope :=
  q.tables.flatMap fun name => (schema name).pairs

/-- Every table that the query scans is there, with its schema. -/
def Finds (schema : String → Schema) (table : String → Except Error Relation) (q : Query) : Prop :=
  ∀ name ∈ q.tables, ∃ r, table name = .ok r ∧ r.schema = schema name

/-- Every name that is resolved once is right. -/
def ChoosesRight (schema : String → Schema) : Query → Prop
  | scan _ => True
  | join left right _ _ => left.ChoosesRight schema ∧ right.ChoosesRight schema
  | filter source _ => source.ChoosesRight schema
  | order source keys =>
    source.ChoosesRight schema ∧ ∀ key ∈ keys, key.1.Right (source.columns schema)
  | offset source _ => source.ChoosesRight schema
  | limit source _ => source.ChoosesRight schema
  | projection source items =>
    source.ChoosesRight schema ∧ ∀ item ∈ items, item.Right (source.columns schema)
  | aggregate source calls =>
    source.ChoosesRight schema ∧ ∀ call ∈ calls, call.Right (source.columns schema)

/-- The predicates whose names are resolved row by row, each with its scope. -/
def tested (schema : String → Schema) : Query → List (Expression × Scope)
  | scan _ => []
  | join left right p _ => left.tested schema ++ right.tested schema ++
      p.toList.map fun e => (e, left.columns schema ++ right.columns schema)
  | filter source e => source.tested schema ++ [(e, source.columns schema)]
  | order source _ => source.tested schema
  | offset source _ => source.tested schema
  | limit source _ => source.tested schema
  | projection source _ => source.tested schema
  | aggregate source _ => source.tested schema

/-- The query, started at `t`, comes to evaluating the predicate for the row at `now`: a filter for
the rows of its source, a join for the pairs of its sides. -/
def Evaluates (schema : String → Schema) (table : String → Except Error Relation) :
    Query → Time.Clock → Expression → Scope → Row → Time.Clock → Prop
  | scan _, _, _, _, _, _ => False
  | join left right p _, t, e, scope, row, now =>
    left.Evaluates schema table t e scope row now ∨
      ∃ l mid, Gives (left.run table) t l mid ∧
        (right.Evaluates schema table mid e scope row now ∨
          ∃ r mid', Gives (right.run table) mid r mid' ∧
            p = some e ∧ scope = left.columns schema ++ right.columns schema ∧
              Comes (e.holds scope.labels) (Rowset.product l.rows r.rows) mid' row now)
  | filter source p, t, e, scope, row, now =>
    source.Evaluates schema table t e scope row now ∨
      ∃ s mid, Gives (source.run table) t s mid ∧
        p = e ∧ scope = source.columns schema ∧ Comes (e.holds scope.labels) s.rows mid row now
  | order source _, t, e, scope, row, now => source.Evaluates schema table t e scope row now
  | offset source _, t, e, scope, row, now => source.Evaluates schema table t e scope row now
  | limit source _, t, e, scope, row, now => source.Evaluates schema table t e scope row now
  | projection source _, t, e, scope, row, now => source.Evaluates schema table t e scope row now
  | aggregate source _, t, e, scope, row, now => source.Evaluates schema table t e scope row now

/-- What a query comes to is one of its predicates. -/
theorem Evaluates.mem_tested (h : q.Evaluates schema table t e scope row now) :
    (e, scope) ∈ q.tested schema := by
  induction q generalizing t with
  | scan name => exact h.elim
  | join left right p outer ihl ihr =>
    rw [tested, List.mem_append, List.mem_append]
    rcases h with h | ⟨l, mid, -, h | ⟨r, mid', -, rfl, rfl, -⟩⟩
    · exact .inl (.inl (ihl h))
    · exact .inl (.inr (ihr h))
    · exact .inr (List.mem_singleton_self _)
  | filter source p ih =>
    rw [tested, List.mem_append]
    rcases h with h | ⟨s, mid, -, rfl, rfl, -⟩
    · exact .inl (ih h)
    · exact .inr (List.mem_singleton_self _)
  | order source keys ih => exact ih h
  | offset source n ih => exact ih h
  | limit source n ih => exact ih h
  | projection source items ih => exact ih h
  | aggregate source calls ih => exact ih h

/-! ## Before anything is shown -/

/-- The labels of a query are those of its columns, before it shows anything. -/
theorem Tabular.columns_eq (hq : q.Tabular) (hfinds : q.Finds schema table)
    (h : Gives (q.run table) t s t') : s.columns = (q.columns schema).labels := by
  obtain ⟨rs, hrs, hparts⟩ := hq.run_inParts h
  have hschemas : q.tables.map schema = rs.map (·.schema) := by
    rw [← List.forall₂_eq_eq_eq, List.forall₂_map_left_iff, List.forall₂_map_right_iff]
    refine ((List.forall₂_and_left _ _).2 ⟨hfinds, hrs⟩).imp fun name r hr => ?_
    obtain ⟨⟨r', hr', hschema⟩, hr⟩ := hr
    rw [hr] at hr'
    cases hr'
    exact hschema.symm
  have hcolumns : q.columns schema = (rs.map (·.schema)).flatMap Schema.pairs := by
    rw [← hschemas, List.flatMap_map, columns]
  rw [hparts.columns, hcolumns, Scope.labels_pairs, List.flatMap_map]

/-- The left side of a join finds its tables if the join does. -/
theorem Finds.left {left right : Query} {p : Option Expression} {outer : Bool}
    (h : (join left right p outer).Finds schema table) : left.Finds schema table :=
  fun name hname => h name (List.mem_append_left _ hname)

/-- The right side of a join finds its tables if the join does. -/
theorem Finds.right {left right : Query} {p : Option Expression} {outer : Bool}
    (h : (join left right p outer).Finds schema table) : right.Finds schema table :=
  fun name hname => h name (List.mem_append_right _ hname)

/-- The columns that a query on tables chooses are right if it answers. -/
theorem Tabular.choosesRight (hq : q.Tabular) (hfinds : q.Finds schema table)
    (h : Gives (q.run table) t s t') : q.ChoosesRight schema := by
  induction hq generalizing t s t' with
  | scan name => trivial
  | join _ name p outer ih =>
    obtain ⟨l, mid, hl, -⟩ := gives_bind.1 h
    exact ⟨ih hfinds.left hl, trivial⟩
  | filter _ p ih | offset _ n ih | limit _ n ih =>
    obtain ⟨mid, _, hmid, -⟩ := gives_bind.1 h
    exact ih hfinds hmid
  | order hsource keys ih =>
    obtain ⟨mid, _, hmid, h⟩ := gives_bind.1 h
    exact ⟨ih hfinds hmid, (Rowset.sort_ok_iff (hsource.columns_eq hfinds hmid)).1
      ⟨s, (gives_ofExcept.1 h).1⟩⟩

/-- The table of a scan is read. -/
theorem run_scan {name : String} (hfinds : (scan name).Finds schema table) :
    ∃ r : Relation, (scan name).run table = return r.rowset := by
  obtain ⟨r, hr, -⟩ := hfinds name (List.mem_singleton_self name)
  refine ⟨r, ?_⟩
  rw [run, hr]
  rfl

/-- **What a query reads and joins is refused** where a predicate is that it comes to, if its names
that are resolved once are right. -/
theorem Tabular.fails_run (hq : q.Tabular) (hfinds : q.Finds schema table)
    (hright : q.ChoosesRight schema) : Fails (q.run table) t x ↔
      ∃ e scope row now, q.Evaluates schema table t e scope row now ∧
        Fails (e.evaluate scope.labels row) now x := by
  induction hq generalizing t with
  | scan name =>
    obtain ⟨r, hr⟩ := run_scan hfinds
    rw [hr]
    exact ⟨fun h => absurd h not_fails_pure, fun ⟨_, _, _, _, h, _⟩ => h.elim⟩
  | @join left hleft name p outer ih =>
    -- The rows that are read have the labels of the schema.
    have hlabels {l r : Rowset} {mid mid' : Time.Clock} (hl : Gives (left.run table) t l mid)
        (hr : Gives ((Query.scan name).run table) mid r mid') : l.columns ++ r.columns =
          Scope.labels (left.columns schema ++ (Query.scan name).columns schema) := by
      rw [Scope.labels_append, hleft.columns_eq hfinds.left hl,
        (Tabular.scan name).columns_eq hfinds.right hr]
    obtain ⟨r, hr⟩ := run_scan hfinds.right
    rw [run, fails_bind, ih hfinds.left hright.1]
    constructor
    · rintro (⟨e, scope, row, now, h, hfails⟩ | ⟨l, mid, hl, h⟩)
      · exact ⟨e, scope, row, now, .inl h, hfails⟩
      · rcases fails_bind.1 h with h | ⟨r, mid', hr, h⟩
        · rw [hr] at h
          exact absurd h not_fails_pure
        · obtain ⟨e, row, now, rfl, hcomes, hfails⟩ := Rowset.fails_join.1 h
          rw [hlabels hl hr] at hcomes hfails
          exact ⟨e, _, row, now, .inr ⟨l, mid, hl, .inr ⟨r, mid', hr, rfl, rfl, hcomes⟩⟩, hfails⟩
    · rintro ⟨e, scope, row, now, h | ⟨l, mid, hl, h | ⟨r, mid', hr, rfl, rfl, hcomes⟩⟩, hfails⟩
      · exact .inl ⟨e, scope, row, now, h, hfails⟩
      · exact h.elim
      · refine .inr ⟨l, mid, hl, fails_bind.2 (.inr ⟨r, mid', hr, Rowset.fails_join.2 ?_⟩)⟩
        rw [hlabels hl hr]
        exact ⟨e, row, now, rfl, hcomes, hfails⟩
  | @filter source hsource p ih =>
    rw [run, fails_bind, ih hfinds hright]
    constructor
    · rintro (⟨e, scope, row, now, h, hfails⟩ | ⟨s, mid, hs, h⟩)
      · exact ⟨e, scope, row, now, .inl h, hfails⟩
      · obtain ⟨row, now, hcomes, hfails⟩ := Rowset.fails_filter.1 h
        rw [hsource.columns_eq hfinds hs] at hcomes hfails
        exact ⟨p, _, row, now, .inr ⟨s, mid, hs, rfl, rfl, hcomes⟩, hfails⟩
    · rintro ⟨e, scope, row, now, h | ⟨s, mid, hs, rfl, rfl, hcomes⟩, hfails⟩
      · exact .inl ⟨e, scope, row, now, h, hfails⟩
      · refine .inr ⟨s, mid, hs, Rowset.fails_filter.2 ?_⟩
        rw [hsource.columns_eq hfinds hs]
        exact ⟨row, now, hcomes, hfails⟩
  | @order source hsource keys ih =>
    -- Keys that are right can be sorted by.
    rw [run, fails_bind, ih hfinds hright.1, or_iff_left]
    · exact Iff.rfl
    · rintro ⟨s, mid, hs, h⟩
      obtain ⟨s', hs'⟩ := (Rowset.sort_ok_iff (hsource.columns_eq hfinds hs)).2 hright.2
      rw [fails_ofExcept, hs'] at h
      cases h
  | offset _ n ih | limit _ n ih =>
    rw [run, fails_bind, ih hfinds hright, or_iff_left]
    · exact Iff.rfl
    · rintro ⟨s, mid, -, h⟩
      exact not_fails_pure h

/-- Where the tables have no rows nothing is tested. -/
theorem Tabular.gives_empty (hq : q.Tabular) (hfinds : q.Finds schema table)
    (hright : q.ChoosesRight schema)
    (hempty : ∀ name ∈ q.tables, ∀ r, table name = .ok r → r.scan = []) :
    ∃ s, Gives (q.run table) t s t ∧ s.rows = [] := by
  induction hq with
  | scan name =>
    obtain ⟨r, hr, -⟩ := hfinds name (List.mem_singleton_self name)
    refine ⟨r.rowset, ?_, ?_⟩
    · rw [run, hr]
      exact gives_pure.2 ⟨rfl, rfl⟩
    · rw [Relation.rowset, hempty name (List.mem_singleton_self name) r hr, List.map_nil]
  | @join left hleft name p outer ih =>
    obtain ⟨l, hl, hlrows⟩ := ih hfinds.left hright.1
      fun name hname => hempty name (List.mem_append_left _ hname)
    obtain ⟨r, hr⟩ := run_scan hfinds.right
    refine ⟨⟨l.columns ++ r.rowset.columns, []⟩, ?_, rfl⟩
    rw [run, hr]
    refine gives_bind.2 ⟨l, t, hl, ?_⟩
    rw [pure_bind, Rowset.join, hlrows]
    exact gives_pure.2 ⟨rfl, rfl⟩
  | filter _ p ih =>
    obtain ⟨s, hs, hrows⟩ := ih hfinds hright hempty
    refine ⟨s, gives_bind.2 ⟨s, t, hs, ?_⟩, hrows⟩
    rw [Rowset.filter, hrows]
    exact gives_pure.2 ⟨by rw [← hrows], rfl⟩
  | order hsource keys ih =>
    obtain ⟨s, hs, hrows⟩ := ih hfinds hright.1 hempty
    obtain ⟨s', hs'⟩ := (Rowset.sort_ok_iff (hsource.columns_eq hfinds hs)).2 hright.2
    refine ⟨s', gives_bind.2 ⟨s, t, hs, gives_ofExcept.2 ⟨hs', rfl⟩⟩, ?_⟩
    obtain ⟨positions, -, hs'⟩ := Except.bind_eq_ok.1 hs'
    cases hs'
    simp [hrows]
  | offset _ n ih =>
    obtain ⟨s, hs, hrows⟩ := ih hfinds hright hempty
    exact ⟨s.drop n, gives_bind.2 ⟨s, t, hs, gives_pure.2 ⟨rfl, rfl⟩⟩, by simp [Rowset.drop, hrows]⟩
  | limit _ n ih =>
    obtain ⟨s, hs, hrows⟩ := ih hfinds hright hempty
    exact ⟨s.take n, gives_bind.2 ⟨s, t, hs, gives_pure.2 ⟨rfl, rfl⟩⟩, by simp [Rowset.take, hrows]⟩

/-! ## What is shown -/

/-- The query shows items of rows, or the values of functions, or some of what it shows. -/
inductive Shows : Query → Prop
  | projection {source : Query} (h : source.Tabular) (items : List SelectItem) :
      Shows (projection source items)
  | aggregate {source : Query} (h : source.Tabular) (calls : List AggregateCall) :
      Shows (aggregate source calls)
  | offset {source : Query} (h : source.Shows) (count : Nat) : Shows (offset source count)
  | limit {source : Query} (h : source.Shows) (count : Nat) : Shows (limit source count)

/-- **A query is refused for a name that is resolved once**, if it is wrong. -/
theorem Shows.choosesRight (hq : q.Shows) (hfinds : q.Finds schema table)
    (h : Gives (q.run table) t s t') : q.ChoosesRight schema := by
  induction hq generalizing t s t' with
  | projection hsource items =>
    obtain ⟨mid, _, hmid, h⟩ := gives_bind.1 h
    exact ⟨hsource.choosesRight hfinds hmid, (Rowset.project_ok_iff
      (hsource.columns_eq hfinds hmid)).1 ⟨s, (gives_ofExcept.1 h).1⟩⟩
  | aggregate hsource calls =>
    obtain ⟨mid, _, hmid, h⟩ := gives_bind.1 h
    exact ⟨hsource.choosesRight hfinds hmid, Rowset.right_of_aggregate
      (hsource.columns_eq hfinds hmid) (gives_ofExcept.1 h).1⟩
  | offset _ n ih | limit _ n ih =>
    obtain ⟨mid, _, hmid, -⟩ := gives_bind.1 h
    exact ih hfinds hmid

/-- **A query is refused for a reference** where a predicate is that it comes to, if its names that
are resolved once are right. -/
theorem Shows.fails_run (hq : q.Shows) (hfinds : q.Finds schema table)
    (hright : q.ChoosesRight schema) (hx : x.OfReference c) : Fails (q.run table) t x ↔
      ∃ e scope row now, q.Evaluates schema table t e scope row now ∧
        Fails (e.evaluate scope.labels row) now x := by
  induction hq generalizing t with
  | projection hsource items =>
    rw [run, fails_bind, hsource.fails_run hfinds hright.1, or_iff_left]
    · exact Iff.rfl
    · rintro ⟨s, mid, hs, h⟩
      obtain ⟨s', hs'⟩ := (Rowset.project_ok_iff (hsource.columns_eq hfinds hs)).2 hright.2
      rw [fails_ofExcept, hs'] at h
      cases h
  | aggregate hsource calls =>
    rw [run, fails_bind, hsource.fails_run hfinds hright.1, or_iff_left]
    · exact Iff.rfl
    · rintro ⟨s, mid, hs, h⟩
      exact (Rowset.aggregate_within_values (hsource.columns_eq hfinds hs) hright.2 x
        (fails_ofExcept.1 h)).not_reference c hx
  | offset _ n ih | limit _ n ih =>
    rw [run, fails_bind, ih hfinds hright, or_iff_left]
    · exact Iff.rfl
    · rintro ⟨s, mid, -, h⟩
      exact not_fails_pure h

/-- **Where there are no rows** a query is answered, if its names that are resolved once are
right. -/
theorem Shows.gives_empty (hq : q.Shows) (hfinds : q.Finds schema table)
    (hright : q.ChoosesRight schema)
    (hempty : ∀ name ∈ q.tables, ∀ r, table name = .ok r → r.scan = []) :
    ∃ s, Gives (q.run table) t s t := by
  induction hq with
  | projection hsource items =>
    obtain ⟨s, hs, -⟩ := hsource.gives_empty hfinds hright.1 hempty
    obtain ⟨s', hs'⟩ := (Rowset.project_ok_iff (hsource.columns_eq hfinds hs)).2 hright.2
    exact ⟨s', gives_bind.2 ⟨s, t, hs, gives_ofExcept.2 ⟨hs', rfl⟩⟩⟩
  | aggregate hsource calls =>
    obtain ⟨s, hs, hrows⟩ := hsource.gives_empty hfinds hright.1 hempty
    obtain ⟨s', hs'⟩ := Rowset.aggregate_empty (hsource.columns_eq hfinds hs) hrows hright.2
    exact ⟨s', gives_bind.2 ⟨s, t, hs, gives_ofExcept.2 ⟨hs', rfl⟩⟩⟩
  | offset _ n ih =>
    obtain ⟨s, hs⟩ := ih hfinds hright hempty
    exact ⟨s.drop n, gives_bind.2 ⟨s, t, hs, gives_pure.2 ⟨rfl, rfl⟩⟩⟩
  | limit _ n ih =>
    obtain ⟨s, hs⟩ := ih hfinds hright hempty
    exact ⟨s.take n, gives_bind.2 ⟨s, t, hs, gives_pure.2 ⟨rfl, rfl⟩⟩⟩

end Query
end MiniSql
