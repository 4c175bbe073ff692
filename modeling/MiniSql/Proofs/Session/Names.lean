/-
# Wrong names

A query, an `UPDATE` and a `DELETE` name columns in several places. Where a name is resolved once, a
wrong one is refused whatever the rows are. Where it is resolved for each row that the evaluation
comes to, a wrong one is refused exactly if the evaluation comes to it
(`Session.Reached.execute_names`).

| names in | resolved | a wrong one is refused |
| --- | --- | --- |
| items, arguments of functions, `ORDER BY`, targets of `SET` | once | always |
| `ON`, `WHERE`, values of `SET` | row by row | where the evaluation comes to it |

So the tables decide whether a wrong name of the second kind is refused. Without rows it never is.
-/

import MiniSql.Proofs.Plan.Filtered
import MiniSql.Proofs.Plan.Shown
import MiniSql.Proofs.Session.Internal
import MiniSql.Proofs.Session.MissingTables
import MiniSql.Proofs.Session.Stamps
import MiniSql.Proofs.Store.Names

namespace MiniSql

open Error Timed

namespace Plan

variable {schema : String → Schema} {p : Plan} {c : Catalog} {t t' now : Time.Clock}
  {start : Int64} {x : Error} {e : Expression} {scope : Scope} {row : Row} {name : String}

/-! ## Names in plans -/

/-- The plan works on the rows that it finds: it is a query, an `UPDATE` or a `DELETE`. -/
def findsRows : Plan → Bool
  | createTable _ _ => false
  | dropTable _ _ => false
  | truncate _ => false
  | insert _ _ _ _ => false
  | update _ _ _ => true
  | delete _ _ => true
  | query _ => true

/-- Every name that is resolved once is right. -/
def ChoosesRight (schema : String → Schema) : Plan → Prop
  | createTable _ _ => True
  | dropTable _ _ => True
  | truncate _ => True
  | insert _ _ _ _ => True
  | update table _ assignments => (schema table).Assignable assignments
  | delete _ _ => True
  | query q => q.ChoosesRight schema

/-- The plan assigns to a column that its table numbers, and the error says so. -/
inductive AssignsNumbered (schema : String → Schema) : Plan → Error → Prop
  | update {table : String} {predicate : Expression} {assignments : List (String × Expression)}
      {column : Column} (hcolumn : column ∈ (schema table).columns)
      (hnumbered : column.autoincrement = true) (hassigned : column.name ∈ assignments.map (·.1)) :
      AssignsNumbered schema (update table predicate assignments)
        (.constraint (.autoincrement column.name))

/-- The expressions whose names are resolved row by row, each with its scope. -/
def tested (schema : String → Schema) : Plan → List (Expression × Scope)
  | createTable _ _ => []
  | dropTable _ _ => []
  | truncate _ => []
  | insert _ _ _ _ => []
  | update table predicate assignments =>
    (predicate :: assignments.map (·.2)).map fun e => (e, (schema table).pairs)
  | delete table predicate => [(predicate, (schema table).pairs)]
  | query q => q.tested schema

/-- The plan, carried out in the catalog from `t` on, comes to evaluating the expression for the row
at `now`. -/
inductive Evaluates (schema : String → Schema) (c : Catalog) (t : Time.Clock) :
    Plan → Expression → Scope → Row → Time.Clock → Prop
  | query {q : Query} {e : Expression} {scope : Scope} {row : Row} {now : Time.Clock}
      (h : q.Evaluates schema (c.table (query q).locks) t e scope row now) :
      Evaluates schema c t (query q) e scope row now
  | update {table : String} {r : Relation} {predicate e : Expression}
      {assignments : List (String × Expression)} {assigned : List (Nat × Expression)} {row : Row}
      {now : Time.Clock} (hr : c.tables.get? table = some r)
      (htargets : Mutation.targets r.schema [] assignments = .ok assigned)
      (h : Mutation.Evaluates r.schema predicate assigned r.scan t e row now) :
      Evaluates schema c t (update table predicate assignments) e (schema table).pairs row now
  | delete {table : String} {r : Relation} {predicate : Expression} {row : Row}
      {now : Time.Clock} (hr : c.tables.get? table = some r)
      (h : Comes (predicate.holds r.schema.labels) (r.scan.map (·.2)) t row now) :
      Evaluates schema c t (delete table predicate) predicate (schema table).pairs row now

/-- What a plan comes to is one of its expressions. -/
theorem Evaluates.mem_tested (h : p.Evaluates schema c t e scope row now) :
    (e, scope) ∈ p.tested schema := by
  cases h with
  | query h => exact h.mem_tested
  | update hr htargets h =>
    refine List.mem_map_of_mem ?_
    rcases h.mem htargets with rfl | h
    · exact List.mem_cons_self
    · exact List.mem_cons_of_mem _ h
  | delete hr h => exact List.mem_singleton_self _

/-! ## Plans whose tables are there -/

/-- Every table that the plan names is there, with its schema. -/
def Finds (schema : String → Schema) (c : Catalog) (p : Plan) : Prop :=
  ∀ name, p.Names name → ∃ r, c.tables.get? name = some r ∧ r.schema = schema name

/-- Where the tables are found, the locks are granted. -/
theorem Finds.grant (hfinds : p.Finds schema c) (hp : p.defines = false) :
    c.grant p.locks = .ok () := by
  cases hgrant : c.grant p.locks with
  | ok => rfl
  | error x =>
    obtain ⟨name, hmissing, -⟩ := (grant_eq_error_iff hp).1 hgrant
    obtain ⟨r, hr, -⟩ := hfinds name hmissing.named
    have hnone := hmissing.missing
    rw [Catalog.has_eq, hr] at hnone
    cases hnone

/-- A query finds its tables under its locks. -/
theorem Finds.query {q : Query} (hfinds : (query q).Finds schema c) :
    q.Finds schema (c.table (query q).locks) := by
  intro name hname
  obtain ⟨r, hr⟩ := Query.readable (hfinds.grant rfl) name hname
  obtain ⟨r', hr', hschema⟩ := hfinds name (.inr ⟨q, rfl, Query.mem_tables_iff.1 hname⟩)
  rw [Catalog.get?_of_table hr] at hr'
  cases hr'
  exact ⟨r, hr, hschema⟩

/-- A query answers the rows of its tables. -/
theorem run_query {q : Query} (hfinds : (query q).Finds schema c) :
    (query q).run start c =
      (fun set => (c, .ok (.rows set))) <$> q.run (c.table (query q).locks) := by
  rw [run, hfinds.grant rfl]
  rfl

/-! ## When they are refused -/

/-- An `UPDATE` finds its targets if they are right. -/
theorem choosesRight_update_iff {table : String} {predicate : Expression}
    {assignments : List (String × Expression)} {r : Relation} (hc : c.WellTyped)
    (hr : c.tables.get? table = some r) (hschema : r.schema = schema table) :
    (update table predicate assignments).ChoosesRight schema ↔
      ∃ assigned, Mutation.targets r.schema [] assignments = .ok assigned := by
  have hwell := (hc _ (SortedMap.mem_entries_of_get? hr)).2
  rw [Mutation.targets_ok_iff hwell.schema.names_nodup, hschema]
  exact Iff.rfl

/-- A plan that is carried out has the right names where they are resolved once. -/
theorem choosesRight_of_gives {out : Catalog × Except Error Answer} (hc : c.WellTyped)
    (hfinds : p.Finds schema c) (hshows : ∀ q, p = query q → q.Shows)
    (h : Gives (p.run start c) t out t') : p.ChoosesRight schema := by
  cases p with
  | query q =>
    rw [run_query hfinds, gives_map] at h
    obtain ⟨set, hset, -⟩ := h
    exact (hshows q rfl).choosesRight hfinds.query hset
  | update table predicate assignments =>
    obtain ⟨r, hr, hschema⟩ := hfinds table (.inl rfl)
    rw [run_update hr] at h
    obtain ⟨_, _, hupdate, -⟩ := gives_bind.1 h
    obtain ⟨assigned, _, htargets, -⟩ := gives_bind.1 hupdate
    exact (choosesRight_update_iff hc hr hschema).2 ⟨assigned, (gives_ofExcept.1 htargets).1⟩
  | _ => trivial

/-- **A wrong name that is resolved once** is refused as a matter of the schema, unless the plan
also assigns to a numbered column. -/
theorem fails_of_not_choosesRight (hc : c.WellTyped) (hfinds : p.Finds schema c)
    (hwrong : ¬p.ChoosesRight schema) (h : Fails (p.run start c) t x) :
    (∃ cause, x = .schema cause) ∨ p.AssignsNumbered schema x := by
  cases p with
  | query q =>
    rw [run_query hfinds] at h
    obtain ⟨t', h⟩ := h
    have hread : ∀ name ∈ q.tables, ∃ r, c.table (query q).locks name = .ok r :=
      Query.readable (hfinds.grant rfl)
    cases Query.run_within hread t x t' (refuses_map.1 h) with
    | schema => exact .inl ⟨_, rfl⟩
    | internal cause =>
      exact absurd (refuses_map.1 h) (Query.run_neverInternal hc.rectangular hread t cause t')
  | update table predicate assignments =>
    obtain ⟨r, hr, hschema⟩ := hfinds table (.inl rfl)
    cases htargets : Mutation.targets r.schema [] assignments with
    | ok assigned =>
      exact absurd ((choosesRight_update_iff hc hr hschema).2 ⟨assigned, htargets⟩) hwrong
    | error x' =>
      rw [run_update hr, Mutation.update, htargets] at h
      obtain ⟨t', h⟩ := h
      obtain ⟨rfl, -⟩ := refuses_refuse.1 h
      refine (Mutation.targets_error htargets).imp_right ?_
      rintro ⟨column, hcolumn, hnumbered, hassigned, rfl⟩
      exact .update (hschema ▸ hcolumn) hnumbered hassigned
  | _ => exact absurd trivial hwrong

/-- **A plan is refused for a reference** where an expression is that it comes to, if its names that
are resolved once are right. -/
theorem fails_run {r : ColumnRef} (hp : p.findsRows = true) (hc : c.WellTyped)
    (hfinds : p.Finds schema c) (hshows : ∀ q, p = query q → q.Shows)
    (hright : p.ChoosesRight schema) (hx : x.OfReference r) : Fails (p.run start c) t x ↔
      ∃ e scope row now, p.Evaluates schema c t e scope row now ∧
        Fails (e.evaluate scope.labels row) now x := by
  cases p with
  | query q =>
    have hread : Fails ((query q).run start c) t x ↔
        Fails (q.run (c.table (query q).locks)) t x := by
      rw [run_query hfinds]
      exact exists_congr fun _ => refuses_map
    rw [hread, (hshows q rfl).fails_run hfinds.query hright hx]
    constructor
    · rintro ⟨e, scope, row, now, h, hfails⟩
      exact ⟨e, scope, row, now, .query h, hfails⟩
    · rintro ⟨e, scope, row, now, ⟨h⟩, hfails⟩
      exact ⟨e, scope, row, now, h, hfails⟩
  | update table predicate assignments =>
    obtain ⟨r, hr, hschema⟩ := hfinds table (.inl rfl)
    obtain ⟨assigned, htargets⟩ := (choosesRight_update_iff hc hr hschema).1 hright
    -- The targets are found, so it is left to the rows to be refused.
    simp only [run_update hr, fails_bind, not_fails_pure, and_false, exists_false, or_false]
    rw [Mutation.fails_update htargets hx, hschema]
    constructor
    · rintro ⟨e, row, now, h, hfails⟩
      refine ⟨e, (schema table).pairs, row, now, .update hr htargets (hschema ▸ h), ?_⟩
      rwa [Schema.labels_pairs]
    · rintro ⟨e, scope, row, now, h, hfails⟩
      cases h with
      | update hr' htargets' h =>
        rw [hr] at hr'
        cases hr'
        rw [htargets] at htargets'
        cases htargets'
        rw [Schema.labels_pairs] at hfails
        exact ⟨e, row, now, hschema ▸ h, hfails⟩
  | delete table predicate =>
    obtain ⟨r, hr, hschema⟩ := hfinds table (.inl rfl)
    simp only [run_delete hr, fails_bind, not_fails_pure, and_false, exists_false, or_false]
    rw [Mutation.fails_delete]
    constructor
    · rintro ⟨row, now, h, hfails⟩
      refine ⟨predicate, (schema table).pairs, row, now, .delete hr h, ?_⟩
      rwa [Schema.labels_pairs, ← hschema]
    · rintro ⟨e, scope, row, now, h, hfails⟩
      cases h with
      | delete hr' h =>
        rw [hr] at hr'
        cases hr'
        rw [Schema.labels_pairs, ← hschema] at hfails
        exact ⟨row, now, h, hfails⟩
  | _ => cases hp

/-- **Where there are no rows** a plan is carried out, if its names that are resolved once are
right. -/
theorem gives_empty (hp : p.findsRows = true) (hc : c.WellTyped) (hfinds : p.Finds schema c)
    (hshows : ∀ q, p = query q → q.Shows) (hright : p.ChoosesRight schema)
    (hempty : ∀ name, p.Names name → ∀ r, c.tables.get? name = some r → r.scan = []) :
    ∃ c' answer, Gives (p.run start c) t (c', .ok answer) t := by
  cases p with
  | query q =>
    have hrows : ∀ name ∈ q.tables, ∀ r, c.table (query q).locks name = .ok r → r.scan = [] :=
      fun name hname r hr => hempty name (.inr ⟨q, rfl, Query.mem_tables_iff.1 hname⟩) r
        (Catalog.get?_of_table hr)
    obtain ⟨set, hset⟩ := (hshows q rfl).gives_empty hfinds.query hright hrows
    rw [run_query hfinds]
    exact ⟨_, _, gives_map.2 ⟨set, hset, rfl⟩⟩
  | update table predicate assignments =>
    obtain ⟨r, hr, hschema⟩ := hfinds table (.inl rfl)
    obtain ⟨assigned, htargets⟩ := (choosesRight_update_iff hc hr hschema).1 hright
    obtain ⟨r', n, hupdate⟩ :=
      Mutation.gives_update_empty (p := predicate) htargets (hempty table (.inl rfl) r hr)
    rw [run_update hr]
    exact ⟨_, _, gives_bind.2 ⟨_, t, hupdate, gives_pure.2 ⟨rfl, rfl⟩⟩⟩
  | delete table predicate =>
    obtain ⟨r, hr, hschema⟩ := hfinds table (.inl rfl)
    rw [run_delete hr, Mutation.delete, hempty table (.inl rfl) r hr]
    exact ⟨_, _, gives_pure.2 ⟨rfl, rfl⟩⟩
  | _ => cases hp

/-- What a plan that finds rows answers, where it is carried out, is no error. -/
theorem answer_ok {answer : Except Error Answer} {c' : Catalog} (hp : p.findsRows = true)
    (h : Gives (p.run start c) t (c', answer) t') : ∃ a, answer = .ok a := by
  cases answer with
  | ok a => exact ⟨a, rfl⟩
  | error e =>
    cases p
    case update | delete | query =>
      simp only [run, carryOut, gives_bind, gives_pure, Prod.mk.injEq, reduceCtorEq, and_false,
        false_and, exists_false] at h
    all_goals cases hp

end Plan

namespace Session

variable {options : Options} {s : Session} {st : Statement} {p : Plan} {x : Error}
  {schema : String → Schema}

/-- A statement on rows is refused exactly as its plan is. -/
theorem execute_error_iff (hplan : s.plan st = .ok p) (hp : p.findsRows = true) :
    (s.execute st).1 = .error x ↔
      Fails (p.run s.database.options.autoincrementStart s.database.catalog) s.clock x := by
  rcases gives_or_refuses (p.run s.database.options.autoincrementStart s.database.catalog) s.clock
    with ⟨⟨c, answer⟩, t, hgives⟩ | ⟨e, t, hrefused⟩
  · obtain ⟨a, rfl⟩ := Plan.answer_ok hp hgives
    rw [execute_eq (Database.execute_of_gives hplan hgives)]
    exact iff_of_false (fun h => nomatch h) hgives.not_fails
  · rw [execute_eq (Database.execute_of_refuses hplan hrefused)]
    constructor
    · rintro ⟨⟩
      exact ⟨t, hrefused⟩
    · rintro ⟨t', h⟩
      have hsame : (Except.error e, t) = (Except.error x, t') := hrefused.symm.trans h
      cases hsame
      rfl

/-- **Wrong names.** A query, an `UPDATE` or a `DELETE` whose tables are there is refused for a name
that is resolved once and wrong, whatever the rows are. Else it is refused for a reference exactly
where an expression reaches one that is wrong, for a row that the evaluation comes to; not where all
are right, and not where there are no rows, whatever the expressions refer to. -/
theorem Reached.execute_names (hs : s.Reached options) (hplan : s.plan st = .ok p)
    (hp : p.findsRows = true) (hfinds : p.Finds schema s.database.catalog) :
    (¬p.ChoosesRight schema → ∃ x, (s.execute st).1 = .error x ∧
      ((∃ cause, x = .schema cause) ∨ p.AssignsNumbered schema x)) ∧
    (p.ChoosesRight schema →
      (∀ c x, x.OfReference c → ((s.execute st).1 = .error x ↔
        ∃ e scope row now, p.Evaluates schema s.database.catalog s.clock e scope row now ∧
          e.Reaches scope.labels row now c ∧ c.Wrong scope x)) ∧
      ((∀ e scope, (e, scope) ∈ p.tested schema → ∀ c ∈ e.columns, c.Right scope) →
        ∀ c x, x.OfReference c → (s.execute st).1 ≠ .error x) ∧
      ((∀ name, p.Names name → ∀ r, s.table? name = some r → r.scan = []) →
        ∃ answer, (s.execute st).1 = .ok answer)) := by
  have hc : s.database.catalog.WellTyped := .of_stored hs.stored
  have hshows : ∀ q, p = .query q → q.Shows := fun q hq => Plan.shows_of_ofText (hq ▸ hplan)
  constructor
  · intro hwrong
    rcases gives_or_refuses (p.run s.database.options.autoincrementStart s.database.catalog) s.clock
      with ⟨out, t, hgives⟩ | ⟨x, t, hrefused⟩
    · exact absurd (Plan.choosesRight_of_gives hc hfinds hshows hgives) hwrong
    · exact ⟨x, (execute_error_iff hplan hp).2 ⟨t, hrefused⟩,
        Plan.fails_of_not_choosesRight hc hfinds hwrong ⟨t, hrefused⟩⟩
  intro hright
  have hrefused (c : ColumnRef) (x : Error) (hx : x.OfReference c) :
      (s.execute st).1 = .error x ↔
        ∃ e scope row now, p.Evaluates schema s.database.catalog s.clock e scope row now ∧
          e.Reaches scope.labels row now c ∧ c.Wrong scope x := by
    rw [execute_error_iff hplan hp, Plan.fails_run hp hc hfinds hshows hright hx]
    simp only [Expression.fails_evaluate hx, ColumnRef.resolve_error_iff]
  refine ⟨hrefused, fun hall c x hx herror => ?_, fun hempty => ?_⟩
  · obtain ⟨e, scope, row, now, h, hreaches, hwrong⟩ := (hrefused c x hx).1 herror
    exact hwrong.not_right (hall e scope h.mem_tested c hreaches.mem_columns)
  · obtain ⟨c, answer, hgives⟩ := Plan.gives_empty hp hc hfinds hshows hright hempty
    exact ⟨answer, congrArg (·.1) (execute_eq (Database.execute_of_gives hplan hgives))⟩

/-- A query with a column in its `WHERE` that its table lacks. -/
def namesUnknown : Statement := ⟨"SELECT * FROM t WHERE nope = 1", []⟩

/-- Its plan. -/
def unknownPlan : Plan :=
  .query (.projection (.filter (.scan "t")
    (.compare .equal (.field ⟨none, "nope"⟩) (.constant (.integer 1)))) [.all])

/-- The session with a row in its table. -/
def oneRow : Session := (oneColumn.execute ⟨"INSERT INTO t VALUES (1)", []⟩).2

/-- The schema of the table. -/
def oneColumnSchema : Schema := ⟨"t", [.plain "a" .integer]⟩

/-- **The tables decide**: no table has the column, and the query is answered where its table is
empty, and refused where it has a row. -/
theorem execute_names_oneRow :
    ColumnRef.Wrong ⟨none, "nope"⟩ oneColumnSchema.pairs (.schema (.noColumn ⟨none, "nope"⟩)) ∧
      (∃ answer, (oneColumn.execute namesUnknown).1 = .ok answer) ∧
      (oneRow.execute namesUnknown).1 = .error (.schema (.noColumn ⟨none, "nope"⟩)) := by
  have hwrong : ColumnRef.Wrong ⟨none, "nope"⟩ oneColumnSchema.pairs
      (.schema (.noColumn ⟨none, "nope"⟩)) :=
    ColumnRef.resolve_error_iff.1 (by decide +kernel)
  have hnames (name : String) (h : unknownPlan.Names name) : name = "t" := by
    rcases h with h | ⟨q, hq, h⟩
    · cases h
    · cases hq
      simpa [Query.tables] using Query.mem_tables_iff.2 h
  have hright : unknownPlan.ChoosesRight fun _ => oneColumnSchema :=
    ⟨trivial, fun item hitem => by rw [List.mem_singleton.1 hitem]; trivial⟩
  have hempty : (oneColumn.table? "t").map (fun r => (r.schema, r.scan)) =
      some (oneColumnSchema, []) := by decide +kernel
  have hone : (oneRow.table? "t").map (fun r => (r.schema, r.scan)) =
      some (oneColumnSchema, [(0, [.integer 1])]) := by decide +kernel
  obtain ⟨r, hr, hrow⟩ := Option.map_eq_some_iff.1 hempty
  obtain ⟨hschema, hscan⟩ := Prod.mk.inj hrow
  obtain ⟨r', hr', hrow'⟩ := Option.map_eq_some_iff.1 hone
  obtain ⟨hschema', hscan'⟩ := Prod.mk.inj hrow'
  have hfinds : unknownPlan.Finds (fun _ => oneColumnSchema) oneColumn.database.catalog :=
    fun name hname => ⟨r, hnames name hname ▸ hr, hschema⟩
  have hfinds' : unknownPlan.Finds (fun _ => oneColumnSchema) oneRow.database.catalog :=
    fun name hname => ⟨r', hnames name hname ▸ hr', hschema'⟩
  have hreached : oneColumn.Reached .standard := ⟨⟨0, []⟩, .execute .refl _⟩
  have hreached' : oneRow.Reached .standard := ⟨⟨0, []⟩, .execute (.execute .refl _) _⟩
  have hplan : oneColumn.plan namesUnknown = .ok unknownPlan := by decide +kernel
  have hplan' : oneRow.plan namesUnknown = .ok unknownPlan := by decide +kernel
  obtain ⟨-, hlaw⟩ := hreached.execute_names hplan rfl hfinds
  obtain ⟨-, hlaw'⟩ := hreached'.execute_names hplan' rfl hfinds'
  obtain ⟨-, -, hanswered⟩ := hlaw hright
  obtain ⟨hrefused, -, -⟩ := hlaw' hright
  refine ⟨hwrong, hanswered fun name hname r₁ hr₁ => ?_, (hrefused ⟨none, "nope"⟩ _ .missing).2 ?_⟩
  · rw [hnames name hname, hr] at hr₁
    cases hr₁
    exact hscan
  · obtain ⟨r₁, hr₁, -⟩ := Plan.Finds.query hfinds' "t" (List.mem_singleton_self "t")
    obtain rfl : r' = r₁ := Option.some.inj (hr'.symm.trans (Catalog.get?_of_table hr₁))
    have hread : Gives ((Query.scan "t").run (oneRow.database.catalog.table unknownPlan.locks))
        oneRow.clock r'.rowset oneRow.clock := by
      refine gives_bind.2 ⟨r', oneRow.clock, gives_ofExcept.2 ⟨hr₁, rfl⟩, gives_pure.2 ⟨rfl, rfl⟩⟩
    have hevaluates : unknownPlan.Evaluates (fun _ => oneColumnSchema) oneRow.database.catalog
        oneRow.clock (.compare .equal (.field ⟨none, "nope"⟩) (.constant (.integer 1)))
        (Query.columns (fun _ => oneColumnSchema) (.scan "t")) [.integer 1] oneRow.clock := by
      refine .query (.inr ⟨r'.rowset, oneRow.clock, hread, rfl, rfl, ?_⟩)
      rw [Relation.rowset, hscan']
      exact .here _ [] _
    exact ⟨_, _, _, _, hevaluates, .compareLeft (.field _ _), hwrong⟩

end Session
end MiniSql
