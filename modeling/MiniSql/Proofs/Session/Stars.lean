/-
# Stars in a session

A star shows all columns and `u.*` those whose labels name the table `u`, wherever a session has got
to. For a table `t`:

| | `t` without a full stop | `t` with one |
| --- | --- | --- |
| rows of `SELECT * FROM t` | those of the table | those of the table |
| names of its columns | those of the schema | each with the end of `t` before it |
| `SELECT t.* FROM t` | the same | refused |

Where a `SELECT` lists `u.*` among its items, it shows every row that its tables, joins and clauses
give, and of it the parts of the tables that `u.*` stands for (`Session.Reached.execute_stars`).
-/

import MiniSql.Proofs.Plan.Filtered
import MiniSql.Proofs.Plan.Select
import MiniSql.Proofs.Query.Stars
import MiniSql.Proofs.Session.Read
import MiniSql.Proofs.Session.Stamps
import MiniSql.Proofs.Store.Writes

namespace MiniSql

open Timed
open Grammar (Tree renderName)
open MiniSql.Relation (cut Part)

/-- A request to read tables that are there is granted. -/
theorem Catalog.grant_readAll {c : Catalog} {names : List String}
    (h : ∀ name ∈ names, c.has name = true) :
    c.grant (names.foldl LockRequest.read .empty) = .ok () := by
  have hall : (names.foldl LockRequest.read .empty).keys.find? (fun name => !c.has name) =
      none := by
    refine List.find?_eq_none.2 fun name hname => ?_
    obtain ⟨e, he, rfl⟩ := List.mem_map.1 hname
    have hlocked := SortedMap.mem_entries_iff.1 he
    have hnamed := LockRequest.isSome_get?_readAll.1 (Option.isSome_of_eq_some hlocked)
    rcases hnamed with hnamed | hempty
    · simp [h _ hnamed]
    · cases hempty
  rw [grant, hall]

/-- A predicate that is always true keeps all rows. -/
theorem Rowset.gives_filter_one (s : Rowset) (t : Time.Clock) :
    Gives (s.filter (.constant (.integer 1))) t s t := by
  have hkeep : Gives (keep (Expression.holds (.constant (.integer 1)) s.columns) s.rows) t
      s.rows t := by
    have hall := List.filter_eq_self.2 fun (row : Row) (_ : row ∈ s.rows) =>
      (rfl : Expression.picks (.constant (.integer 1)) s.columns row = true)
    exact (gives_keep rfl).2 ⟨fun row _ => ⟨true, rfl⟩, hall.symm, rfl⟩
  simp only [Rowset.filter, gives_bind, gives_pure]
  exact ⟨s.rows, t, hkeep, rfl, rfl⟩

/-- The rows of a table under the names that are read off its labels. -/
def Relation.shown (r : Relation) : Rowset := ⟨r.schema.labels.map labelColumn, r.scan.map (·.2)⟩

namespace Session

variable {options : Options} {s : Session} {st : Statement} {name : String} {r : Relation}

/-- **A query that shows items** shows them of the rows of its source, or is refused for the first
of them that cannot be shown. -/
theorem execute_projection {source : Query} {items : List SelectItem} {set : Rowset}
    {t : Time.Clock} (hplan : s.plan st = .ok (.query (.projection source items)))
    (hthere : ∀ name ∈ source.tables, ∃ r, s.table? name = some r)
    (hset : Gives (source.run
      (s.database.catalog.table (Plan.query (.projection source items)).locks)) s.clock set t) :
    s.execute st = (Answer.rows <$> set.project items, ⟨s.database, t⟩) := by
  have hgrant : s.database.catalog.grant (Plan.query (.projection source items)).locks = .ok () :=
    Catalog.grant_readAll fun name hname => by
      obtain ⟨r, hr⟩ := hthere name hname
      exact Option.isSome_of_eq_some hr
  have hread : s.read (.projection source items) =
      s.read source >>= fun set => Timed.ofExcept (set.project items) := by
    simp only [read, Query.run, bind_assoc]
    rfl
  have hsource : Gives (s.read source) s.clock set t :=
    gives_bind.2 ⟨(), s.clock, gives_ofExcept.2 ⟨hgrant, rfl⟩, hset⟩
  exact execute_of_read hplan hread hsource

/-! ## One table -/

/-- A text that lists one item of one table shows it of all rows. -/
theorem execute_selectFrom {text : String} {item : Tree} (hr : s.table? name = some r)
    (hitem : Grammar.Lexes text (Grammar.Spells.Item · item)) (shown : SelectItem)
    (hadd : Planning.Draft.add [] {} item = .ok { items := [shown] })
    (hplaceholders : Arguments.placeholders item = []) :
    s.execute ⟨"SELECT " ++ text ++ " FROM " ++ renderName name, []⟩ =
      (Answer.rows <$> r.rowset.project [shown], s) := by
  have hplan : s.plan ⟨"SELECT " ++ text ++ " FROM " ++ renderName name, []⟩ =
      .ok (.selectFrom [shown] name) :=
    Plan.ofText_selectFrom (Grammar.parse_selectFrom hitem name) hadd hplaceholders
  refine execute_projection hplan ?_ ?_
  · intro table htable
    obtain rfl := List.mem_singleton.1 htable
    exact ⟨r, hr⟩
  · have htable := (Catalog.grant_one (rfl : (LockRequest.read .empty name).keys = [name]) hr).2
    simp only [Query.run, gives_bind, gives_pure, gives_ofExcept]
    exact ⟨r.rowset, s.clock, ⟨r, s.clock, ⟨htable, rfl⟩, rfl, rfl⟩, r.rowset.gives_filter_one _⟩

/-- What the two statements with a star answer for a table: all its rows, in order, under the names
that are read off its labels. -/
structure AnswersStars (s : Session) (name : String) (r : Relation) : Prop where
  all : s.execute ⟨"SELECT * FROM " ++ renderName name, []⟩ = (.ok (.rows r.shown), s)
  own : s.execute ⟨"SELECT " ++ renderName name ++ ".* FROM " ++ renderName name, []⟩ =
    (if '.' ∈ name.toList then .error (.schema (.tableNotInQuery name)) else .ok (.rows r.shown), s)
  names : r.shown.columns = r.schema.columns.map (·.name) ↔ '.' ∉ name.toList

/-- **Every table answers its stars.** -/
theorem Reached.answersStars (hs : s.Reached options) (hr : s.table? name = some r) :
    s.AnswersStars name r := by
  have hstored : r.Stored name := hs.stored _ (SortedMap.mem_entries_of_get? hr)
  have hname : r.schema.name = name := hstored.named
  have hrows : r.rowset.Rectangular := hstored.wellTyped.rectangular
  have hcolumns := hstored.wellTyped.schema.columns_ne_nil
  constructor
  · have hexecute := execute_selectFrom hr Grammar.lexes_all .all rfl (by simp)
    rw [Rowset.project_all hrows] at hexecute
    exact hexecute
  · have htext : "SELECT " ++ renderName name ++ ".* FROM " ++ renderName name =
        "SELECT " ++ (renderName name ++ ".*") ++ " FROM " ++ renderName name := by
      simp [← String.toList_inj]
    rw [htext, execute_selectFrom hr (Grammar.lexes_starOf name) (.allOf name) rfl
      (by simp [Tree.starOf, Arguments.placeholders_mk]), Rowset.project_own hname hrows hcolumns]
    split <;> rfl
  · rw [← hname]
    exact Rowset.names_eq_iff hcolumns

/-! ## Several tables -/

/-- What a `SELECT` shows that lists `u.*` between other items, where its tables, joins and clauses
give the rows `set`. Each of these rows is cut into a part for each table, a row of the table or
`NULL`s, and `u.*` shows the parts of the tables that it stands for: the table `u` and nothing else
exactly where its name has no full stop in it and begins no other name up to one. -/
structure ShowsStar (s : Session) (st : Statement) (tables : List String)
    (before : List SelectItem) (u : String) (after : List SelectItem) (set : Rowset)
    (clock : Time.Clock) (rs : List Relation) : Prop where
  found : List.Forall₂ (fun name r => s.table? name = some r) tables rs
  columns : set.columns = rs.flatMap (·.schema.labels)
  parts : ∀ row ∈ set.rows, List.Forall₂ Part rs (cut rs row) ∧ (cut rs row).flatten = row
  execute : s.execute st =
    (do
      let a ← set.project before
      let star ← set.starOf u rs
      let b ← set.project after
      return .rows (a.beside (star.beside b)), ⟨s.database, clock⟩)
  alone : tables.Nodup → ∀ i : Nat, tables[i]? = some u → ∃ r : Relation, rs[i]? = some r ∧
    (set.starOf u rs = .ok ⟨r.schema.columns.map (·.name),
        set.rows.map fun row => (cut rs row)[i]?.getD []⟩ ↔
      '.' ∉ u.toList ∧ ∀ z, label u z ∉ tables)

/-- Tables that are found have the names by which they are, and are stored. -/
theorem Reached.stored_of_found (hs : s.Reached options) {names : List String}
    {rs : List Relation} (h : List.Forall₂ (fun name r => s.table? name = some r) names rs) :
    rs.map (·.schema.name) = names ∧ ∀ r ∈ rs, ∃ name, r.Stored name := by
  induction h with
  | nil => exact ⟨rfl, fun _ hr => nomatch hr⟩
  | @cons name r names rs hr _ ih =>
    have hstored : r.Stored name := hs.stored _ (SortedMap.mem_entries_of_get? hr)
    exact ⟨congrArg₂ List.cons hstored.named ih.1, List.forall_mem_cons.2 ⟨⟨name, hstored⟩, ih.2⟩⟩

/-- **A query that lists a star** of one table shows it. -/
theorem Reached.showsStar (hs : s.Reached options) {source : Query}
    {before after : List SelectItem} {u : String}
    (hplan : s.plan st = .ok (.query (.projection source (before ++ .allOf u :: after))))
    (hsource : source.Tabular) {set : Rowset} {clock : Time.Clock}
    (hset : Gives (source.run (s.database.catalog.table
      (Plan.query (.projection source (before ++ .allOf u :: after))).locks)) s.clock set clock) :
    ∃ rs, s.ShowsStar st source.tables before u after set clock rs := by
  obtain ⟨rs, hgiven, hparts⟩ := hsource.run_inParts hset
  have hfound : List.Forall₂ (fun name r => s.table? name = some r) source.tables rs :=
    hgiven.imp fun _ _ h => Catalog.get?_of_table h
  obtain ⟨hnames, hstored⟩ := hs.stored_of_found hfound
  have hrows : ∀ r ∈ rs, r.rowset.Rectangular := by
    intro r hr
    obtain ⟨name, h⟩ := hstored r hr
    exact h.wellTyped.rectangular
  have hcolumns : ∀ r ∈ rs, r.schema.columns ≠ [] := by
    intro r hr
    obtain ⟨name, h⟩ := hstored r hr
    exact h.wellTyped.schema.columns_ne_nil
  have hthere : ∀ name ∈ source.tables, ∃ r, s.table? name = some r := by
    intro name hname
    obtain ⟨r, -, hr⟩ := exists_mem_of_forall₂ hfound.flip hname
    exact ⟨r, hr⟩
  refine ⟨rs, hfound, hparts.columns, hparts.cut hrows, ?_, fun hnodup i hi => ?_⟩
  · rw [execute_projection hplan hthere hset, Rowset.project_between,
      Rowset.project_allOf hparts hrows hcolumns]
    simp only [map_bind, map_pure]
  · rw [← hnames] at hnodup hi ⊢
    rw [List.getElem?_map, Option.map_eq_some_iff] at hi
    obtain ⟨r, hr, hname⟩ := hi
    exact ⟨r, hr, Rowset.starOf_eq_iff hr hname hnodup hcolumns⟩

/-- **Stars show what they stand for**, in every session that can be reached. `SELECT * FROM t` and
`SELECT t.* FROM t` answer all rows of the table `t`, in order, and a `SELECT` that lists `u.*`
answers of every row of its tables the part that belongs to `u`, under the names of its columns, as
far as names have no full stop in them. Where one has, what is shown is told too. -/
theorem Reached.execute_stars (hs : s.Reached options) :
    (∀ name r, s.table? name = some r → s.AnswersStars name r) ∧
      ∀ (st : Statement) (t : Tree) (before after : List SelectItem) (u : String) (p : Plan),
        Grammar.parse st.sql = .ok t → t.kind = .keyword .SELECT →
        t.children.flatMap Planning.itemsOf = before ++ .allOf u :: after → s.plan st = .ok p →
        ∃ source, p = .query (.projection source (before ++ .allOf u :: after)) ∧
          source.tables = t.children.flatMap Planning.tablesOf ∧
          ∀ set clock, Gives (source.run (s.database.catalog.table p.locks)) s.clock set clock →
            ∃ rs, s.ShowsStar st source.tables before u after set clock rs := by
  constructor
  · exact fun name r hr => hs.answersStars hr
  · intro st t before after u p hparse hkind hitems hplan
    have hlisted : t.children.flatMap Planning.itemsOf ≠ [] := by simp [hitems]
    obtain ⟨source, rfl, htables, hsource⟩ := Plan.ofText_select hparse hkind hlisted hplan
    rw [hitems] at hplan ⊢
    exact ⟨source, rfl, htables, fun set clock hset => hs.showsStar hplan hsource hset⟩

/-- A session with a table whose name has a full stop in it, and one whose column has. -/
def dotted : Session :=
  ((new .standard ⟨0, []⟩).run [⟨"CREATE TABLE a (n INT)", []⟩,
    ⟨"CREATE TABLE \"a.b\" (c INT)", []⟩,
    ⟨"CREATE TABLE d (n INT, \"x.y\" TEXT)", []⟩, ⟨"INSERT INTO a VALUES (1), (2)", []⟩,
    ⟨"INSERT INTO \"a.b\" VALUES (7)", []⟩, ⟨"INSERT INTO d VALUES (2, 'z')", []⟩]).2

/-- A query of its three tables with two stars. -/
def twoStars : Statement :=
  ⟨"SELECT d.n, a.*, d.* FROM a, \"a.b\" LEFT JOIN d ON a.n = d.n", []⟩

/-- The rows that it shows. -/
def threeTables : Rowset := ⟨["a.n", "a.b.c", "d.n", "d.x.y"],
  [[.integer 1, .integer 7, .null, .null], [.integer 2, .integer 7, .integer 2, .text "z"]]⟩

/-- The table `a.b` shows its column as `b.c` and has no star of its own. It is shown by the star of
`a`, while the star of `d` shows `d` alone. -/
theorem execute_stars_dotted :
    dotted.Reached .standard ∧
      dotted.execute ⟨"SELECT * FROM \"a.b\"", []⟩ =
        (.ok (.rows ⟨["b.c"], [[.integer 7]]⟩), dotted) ∧
      dotted.execute ⟨"SELECT \"a.b\".* FROM \"a.b\"", []⟩ =
        (.error (.schema (.tableNotInQuery "a.b")), dotted) ∧
      (dotted.execute twoStars).1 = .ok (.rows ⟨["n", "n", "b.c", "n", "x.y"],
        [[.null, .integer 1, .integer 7, .null, .null],
          [.integer 2, .integer 2, .integer 7, .integer 2, .text "z"]]⟩) ∧
      ∃ rs r, dotted.ShowsStar twoStars ["a", "a.b", "d"] [.column ⟨some "d", "n"⟩, .allOf "a"] "d"
          [] threeTables dotted.clock rs ∧ rs[2]? = some r ∧
        threeTables.starOf "d" rs = .ok ⟨r.schema.columns.map (·.name),
          threeTables.rows.map fun row => (cut rs row)[2]?.getD []⟩ := by
  have hreached : dotted.Reached .standard := reached_run _ _ _
  obtain ⟨hone, hmany⟩ := hreached.execute_stars
  have hshown : (dotted.table? "a.b").map Relation.shown = some ⟨["b.c"], [[.integer 7]]⟩ := by
    decide +kernel
  obtain ⟨r, hr, hrows⟩ := Option.map_eq_some_iff.1 hshown
  have hstars := hone "a.b" r hr
  have hall := hstars.all
  rw [hrows] at hall
  let source : Query := .filter (.join (.join (.scan "a") (.scan "a.b") none false) (.scan "d")
    (some (.compare .equal (.field ⟨some "a", "n"⟩) (.field ⟨some "d", "n"⟩))) true)
    (.constant (.integer 1))
  have hplan : dotted.plan twoStars = .ok (.query (.projection source
      [.column ⟨some "d", "n"⟩, .allOf "a", .allOf "d"])) := by decide +kernel
  have hread : (Grammar.parse twoStars.sql).map
      (fun t => (t.kind, t.children.flatMap Planning.itemsOf)) =
        .ok (.keyword .SELECT, [.column ⟨some "d", "n"⟩, .allOf "a", .allOf "d"]) := by
    decide +kernel
  have hset : Gives (source.run (dotted.database.catalog.table (Plan.query (.projection source
      [.column ⟨some "d", "n"⟩, .allOf "a", .allOf "d"])).locks)) dotted.clock threeTables
      dotted.clock := by
    show @Eq (Except Error Rowset × Time.Clock) _ _
    decide +kernel
  cases hparse : Grammar.parse twoStars.sql with
  | error fault =>
    rw [hparse] at hread
    cases hread
  | ok t =>
    rw [hparse] at hread
    obtain ⟨hkind, hitems⟩ := Prod.mk.inj (Except.ok.inj hread)
    obtain ⟨source', hsource, -, hshows⟩ :=
      hmany twoStars t [.column ⟨some "d", "n"⟩, .allOf "a"] [] "d" _ hparse hkind hitems hplan
    cases hsource
    obtain ⟨rs, hrs⟩ := hshows threeTables dotted.clock hset
    obtain ⟨r, hr, halone⟩ := hrs.alone (by decide) 2 rfl
    have hnone : ∀ z, label "d" z ∉ ["a", "a.b", "d"] := by
      simp [← String.toList_inj, toList_label]
    exact ⟨hreached, hall, hstars.own, by decide +kernel, rs, r, hrs, hr,
      halone.2 ⟨by decide, hnone⟩⟩

end Session
end MiniSql
