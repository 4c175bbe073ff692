/-
# Counting in a session

Queries that have their tables, joins and `WHERE` in common read the same rows. So in every session
that can be reached the counts fit what `SELECT *` shows (`Session.Reached.execute_counts`):

| query | answers the number of rows |
| --- | --- |
| `SELECT COUNT(*) … WHERE p` | that `SELECT * … WHERE p` shows |
| `SELECT COUNT(c) … WHERE p` | of those with a value in `c` |
| `SELECT COUNT(*) … WHERE (p) AND c IS NULL` | of the others |

A query whose conditions do not ask for the time is answered alike at all times, so these counts may
be asked for one after the other. And a query that calls functions answers one row, as long as this
is neither skipped nor cut off, whatever rows it calls them for.
-/

import MiniSql.Proofs.Plan.Conditioned
import MiniSql.Proofs.Query.Count
import MiniSql.Proofs.Query.Timeless
import MiniSql.Proofs.Session.AllRows
import MiniSql.Proofs.Session.Internal

namespace MiniSql

open Timed
open Grammar (Tree Token Kind)
open Grammar.Spells (Predicate)

namespace Grammar

/-- Four texts that have their tables, joins and predicate in common: one shows all columns, one
counts the values of a column, one all rows, and the last the rows without a value in the column. -/
structure CountTexts (tables joins : List Tree) (p : Tree) (c : ColumnRef) where
  all : String
  counted : String
  rows : String
  nulls : String
  onlyJoins : ∀ t ∈ joins, t.isWord .JOIN = true
  parse_all : parse all = .ok (.selectWhere (.leaf .asterisk "*") tables joins p [])
  parse_counted : parse counted = .ok (.selectWhere (.word .COUNT [.column c]) tables joins p [])
  parse_rows :
    parse rows = .ok (.selectWhere (.word .COUNT [.leaf .asterisk "*"]) tables joins p [])
  parse_nulls : parse nulls = .ok (.selectWhere (.word .COUNT [.leaf .asterisk "*"]) tables joins
    (.word .AND [p, .isNull (.column c)]) [])

end Grammar

namespace Session

variable {options : Options} {s : Session} {st : Statement} {source q : Query} {e : Expression}
  {set shown : Rowset} {t t' : Time.Clock} {answer : Answer} {c : ColumnRef} {i : Nat}

/-- The filtered rows without a value in a column are those of the conjunction with `c IS NULL`. -/
theorem Reached.gives_and_isNull (hs : s.Reached options)
    (hset : Gives (s.read (.filter source e)) t set t') (hc : c.resolve set.columns = .ok i) :
    Gives (s.read (.filter source (.and e (.isNull (.field c) false)))) t (set.nulls i) t' := by
  obtain ⟨_, _, hgrant, hrun⟩ := gives_bind.1 hset
  obtain ⟨base, mid, hbase, hfilter⟩ := gives_bind.1 hrun
  have hrows : base.Rectangular :=
    Query.run_rectangular (Catalog.WellTyped.of_stored hs.stored).rectangular hbase
  have hcolumns : set.columns = base.columns := by
    obtain ⟨_, _, -, hkept⟩ := gives_bind.1 hfilter
    obtain ⟨rfl, -⟩ := gives_pure.1 hkept
    rfl
  rw [hcolumns] at hc
  refine gives_bind.2 ⟨_, _, hgrant, gives_bind.2 ⟨base, mid, hbase, ?_⟩⟩
  rw [Rowset.filter_and_isNull hrows hc, gives_map]
  exact ⟨set, hfilter, rfl⟩

/-! ## The counts -/

/-- The three counts add up to what is shown. -/
structure CountsFit (s : Session) (arguments : List Value) {tables joins : List Tree} {p : Tree}
    (c : ColumnRef) (texts : Grammar.CountTexts tables joins p c) (shown : Nat) : Prop where
  rows : (s.execute ⟨texts.rows, arguments⟩).1 = .ok (.rows (.number "count(*)" shown))
  split : ∃ values nulls, values + nulls = shown ∧
    (s.execute ⟨texts.counted, arguments⟩).1 =
      .ok (.rows (.number (AggregateCall.text ⟨.count, some c⟩) values)) ∧
    (s.execute ⟨texts.nulls, arguments⟩).1 = .ok (.rows (.number "count(*)" nulls))

variable {tables joins others : List Tree} {item p : Tree} {text : String} {arguments : List Value}

/-- A call is answered by its value for the rows of the source. -/
theorem execute_call {call : AggregateCall}
    (hplan : s.plan st = .ok (.query (.aggregate source [call])))
    (hset : Gives (s.read source) s.clock set t) (hshown : set.aggregate [call] = .ok shown) :
    (s.execute st).1 = .ok (.rows shown) := by
  rw [execute_of_read hplan (s.read_aggregate source [call] none none) hset, hshown]
  rfl

/-- **What is counted fits what is shown.** -/
theorem Reached.countsFit (hs : s.Reached options) (texts : Grammar.CountTexts tables joins p c)
    {counted : Rowset} (hall : (s.execute ⟨texts.all, arguments⟩).1 = .ok (.rows shown))
    (hcounted : (s.execute ⟨texts.counted, arguments⟩).1 = .ok (.rows counted)) :
    s.CountsFit arguments c texts shown.rows.length := by
  obtain ⟨plan, hplan⟩ := plan_of_answer hall
  obtain ⟨_, hcheck, hselect⟩ := Except.bind_eq_ok.1
    ((Plan.ofText_selectWhere texts.parse_all (by simp) rfl (by simp)).symm.trans hplan)
  obtain ⟨x, hx⟩ | ⟨source, e, hsame⟩ := Planning.conditioned_or_refused texts.onlyJoins
  · cases (hx _ _ [] rfl rfl (List.forall_mem_nil _)).symm.trans hselect
  have hnulls := hsame.and_isNull c
  -- The check of the arguments is the same for all four.
  have hplanAll := (plan_selectWhere hcheck texts.parse_all (by simp) rfl (by simp)).trans
    (hsame.select_all texts.onlyJoins)
  have hplanCounted := (plan_selectWhere hcheck texts.parse_counted (by simp) rfl (by simp)).trans
    (hsame.select_call texts.onlyJoins rfl _)
  have hplanRows := (plan_selectWhere hcheck texts.parse_rows (by simp) rfl (by simp)).trans
    (hsame.select_call texts.onlyJoins rfl _)
  have hplanNulls := (plan_selectWhere hcheck texts.parse_nulls (by simp) (by simp)
    (by simp)).trans (hnulls.select_call texts.onlyJoins rfl _)
  rw [Grammar.columnRef_column] at hplanCounted
  obtain ⟨base, clock, _, hbase, hshown, hrows⟩ :=
    read_of_answer hplanAll (s.read_paged (.filter source e) none none [.all]) hall
  cases hrows
  obtain ⟨_, _, _, hbase', hvalue, -⟩ :=
    read_of_answer hplanCounted (s.read_aggregate (.filter source e) _ none none) hcounted
  obtain ⟨rfl, rfl⟩ := hbase.unique hbase'
  obtain ⟨_, hvalue, -⟩ := Except.bind_eq_ok.1 hvalue
  obtain ⟨i, hi⟩ := Rowset.resolve_of_aggregate hvalue
  rw [Rowset.length_project hshown]
  refine ⟨execute_call hplanRows hbase base.aggregate_countAll, base.counted i,
    (base.nulls i).rows.length, base.counted_add_nulls i, ?_, ?_⟩
  · exact execute_call hplanCounted hbase (Rowset.aggregate_count hi)
  · exact execute_call hplanNulls (hs.gives_and_isNull hbase hi) (base.nulls i).aggregate_countAll

/-- A query that calls functions answers one row, if that is neither skipped nor cut off. -/
theorem execute_calls {tree : Tree} (hparse : Grammar.parse st.sql = .ok tree)
    (hkind : tree.kind = .keyword .SELECT) (hcalls : ∃ c ∈ tree.children, Planning.Calls c)
    (hoffset : ∀ c ∈ tree.children, c.isWord .OFFSET = false)
    (hlimit : ∀ n, (tree.children.filterMap Planning.limitOf).getLast? = some n → 1 ≤ n)
    (h : (s.execute st).1 = .ok answer) : ∃ labels row, answer = .rows ⟨labels, [row]⟩ := by
  obtain ⟨plan, hplan⟩ := plan_of_answer h
  have htree : s.plan st = _ := Plan.ofText_of_parse hparse
  rw [hplan] at htree
  obtain ⟨_, -, hstatement⟩ := Except.bind_eq_ok.1 htree.symm
  have hselect : Planning.select st.arguments tree = .ok plan := by
    unfold Planning.statement at hstatement
    rwa [hkind] at hstatement
  obtain ⟨source, calls, rfl⟩ := Planning.select_calls hselect hcalls hoffset
  obtain ⟨set, clock, shown, -, hshown, rfl⟩ :=
    read_of_answer hplan (s.read_aggregate source calls none _) h
  obtain ⟨one, hone, hpaged⟩ := Except.bind_eq_ok.1 hshown
  cases hpaged
  obtain ⟨row, hrow⟩ := Rowset.rows_aggregate hone
  have hpage :
      (one.paged none (tree.children.filterMap Planning.limitOf).getLast?).rows = [row] := by
    cases hlast : (tree.children.filterMap Planning.limitOf).getLast? with
    | none => exact hrow
    | some n =>
      show one.rows.take n = [row]
      rw [hrow, List.take_of_length_le (hlimit n hlast)]
  exact ⟨_, row, congrArg Answer.rows (congrArg (Rowset.mk _) hpage)⟩

/-- **What is counted fits what is shown**, in every session that can be reached and for all tables,
joins and predicates. `COUNT(*)` is the number of rows that `SELECT *` shows, and the values that
`COUNT(c)` counts and the rows that `COUNT(*)` counts where also `c IS NULL` holds add up to it:
both counts are answered where `SELECT *` and `COUNT(c)` are. Nothing is asked of the time, as all
four are asked in one session; where their plans do not ask for it they are answered alike at all
times. And a query that calls functions and is answered gives one row, if it has no `OFFSET` and its
last `LIMIT`, if any, is at least one. -/
theorem Reached.execute_counts (hs : s.Reached options) :
    (∀ (u v : List Token) (o close a is null : Token) (p : Tree) (c : ColumnRef),
      Predicate .disjunction u p → Grammar.Spells.Value v (.column c) → o.kind = .openParen →
      close.kind = .closeParen → a.kind = .keyword .AND → is.kind = .keyword .IS →
      null.kind = .keyword .NULL →
      Predicate .disjunction ((o :: u ++ [close]) ++ a :: (v ++ [is, null]))
        (.word .AND [p, .isNull (.column c)])) ∧
    (∀ (arguments : List Value) (tables joins : List Tree) (p : Tree) (c : ColumnRef)
      (texts : Grammar.CountTexts tables joins p c) (shown counted : Rowset),
      (s.execute ⟨texts.all, arguments⟩).1 = .ok (.rows shown) →
      (s.execute ⟨texts.counted, arguments⟩).1 = .ok (.rows counted) →
      s.CountsFit arguments c texts shown.rows.length) ∧
    (∀ (st : Statement) (q : Query) (clock : Time.Clock), s.plan st = .ok (.query q) →
      q.readsClock = false → (⟨s.database, clock⟩ : Session).execute st =
        ((s.execute st).1, ⟨s.database, clock⟩)) ∧
    ∀ (st : Statement) (tree : Tree) (answer : Answer), Grammar.parse st.sql = .ok tree →
      tree.kind = .keyword .SELECT → (∃ c ∈ tree.children, Planning.Calls c) →
      (∀ c ∈ tree.children, c.isWord .OFFSET = false) →
      (∀ n, (tree.children.filterMap Planning.limitOf).getLast? = some n → 1 ≤ n) →
      (s.execute st).1 = .ok answer → ∃ labels row, answer = .rows ⟨labels, [row]⟩ :=
  ⟨fun _ _ _ _ _ _ _ _ _ hp hc => Grammar.spelled_and_isNull hp hc,
    fun _ _ _ _ _ texts _ _ => hs.countsFit texts, fun _ _ clock hplan h =>
      execute_timeless hplan h clock, fun _ _ _ => execute_calls⟩

/-- A session with two tables of which some keys match and some are `NULL`. -/
def keyed : Session :=
  ((new .standard ⟨0, []⟩).run [⟨"CREATE TABLE a (k INT, x INT)", []⟩,
    ⟨"CREATE TABLE b (k INT, y TEXT)", []⟩,
    ⟨"INSERT INTO a VALUES (1, 1), (NULL, 2), (2, 3), (1, 4)", []⟩,
    ⟨"INSERT INTO b VALUES (1, 'q'), (1, NULL)", []⟩]).2

/-- `LEFT JOIN b ON a.k = b.k` -/
def keyJoin : Tree :=
  .word .JOIN [.word .LEFT [], .table "b" [], .word .ON [⟨.equal, "=",
    [.column ⟨some "a", "k"⟩, .column ⟨some "b", "k"⟩]⟩]]

/-- `x < 4` -/
def belowFour : Tree := ⟨.less, "<", [.leaf .ident "x", .leaf .number "4"]⟩

/-- Four texts about both tables. -/
def keyedTexts : Grammar.CountTexts [.table "a" []] [keyJoin] belowFour ⟨some "b", "y"⟩ where
  all := "SELECT * FROM a LEFT JOIN b ON a.k = b.k WHERE x < 4"
  counted := "SELECT COUNT(b.y) FROM a LEFT JOIN b ON a.k = b.k WHERE x < 4"
  rows := "SELECT COUNT(*) FROM a LEFT JOIN b ON a.k = b.k WHERE x < 4"
  nulls := "SELECT COUNT(*) FROM a LEFT JOIN b ON a.k = b.k WHERE (x < 4) AND b.y IS NULL"
  onlyJoins := List.forall_mem_singleton.2 rfl
  parse_all := by decide +kernel
  parse_counted := by decide +kernel
  parse_rows := by decide +kernel
  parse_nulls := by decide +kernel

/-- A call for no rows, cut to one row. -/
def greatestOfNone : Statement := ⟨"SELECT MAX(x) FROM a WHERE x > 9 LIMIT 1", []⟩

/-- Of four rows one has a value in the column: two have no partner, and one has a `NULL` in its
partner. The greatest of no values is one row too. -/
theorem execute_counts_keyed :
    keyed.Reached .standard ∧
      (∃ shown, (keyed.execute ⟨keyedTexts.all, []⟩).1 = .ok (.rows shown) ∧
        shown.rows.length = 4 ∧ keyed.CountsFit [] ⟨some "b", "y"⟩ keyedTexts shown.rows.length) ∧
      (keyed.execute ⟨keyedTexts.counted, []⟩).1 = .ok (.rows (.number "count(y)" 1)) ∧
      (∀ clock, (⟨keyed.database, clock⟩ : Session).execute ⟨keyedTexts.rows, []⟩ =
        ((keyed.execute ⟨keyedTexts.rows, []⟩).1, ⟨keyed.database, clock⟩)) ∧
      ∃ labels row, (keyed.execute greatestOfNone).1 = .ok (.rows ⟨labels, [row]⟩) := by
  have hreached : keyed.Reached .standard := reached_run _ _ _
  have hstrict : keyed.database.options.strictParams = Options.standard.strictParams :=
    congrArg Options.strictParams (options_run _ _)
  obtain ⟨-, hfit, htimeless, hone⟩ := hreached.execute_counts
  let shown : Rowset := ⟨["k", "x", "k", "y"],
    [[.integer 1, .integer 1, .integer 1, .text "q"], [.integer 1, .integer 1, .integer 1, .null],
      [.null, .integer 2, .null, .null], [.integer 2, .integer 3, .null, .null]]⟩
  have hall : (keyed.execute ⟨keyedTexts.all, []⟩).1 = .ok (.rows shown) := by decide +kernel
  have hcounted : (keyed.execute ⟨keyedTexts.counted, []⟩).1 =
      .ok (.rows (.number "count(y)" 1)) := by decide +kernel
  have hplan : keyed.plan ⟨keyedTexts.rows, []⟩ = .ok (.query (.aggregate (.filter
      (.join (.scan "a") (.scan "b") (some (.compare .equal (.field ⟨some "a", "k"⟩)
        (.field ⟨some "b", "k"⟩))) true)
      (.compare .less (.field ⟨none, "x"⟩) (.constant (.integer 4)))) [⟨.count, none⟩])) := by
    rw [plan, Plan.ofText, keyedTexts.parse_rows, hstrict]
    decide +kernel
  have hgreatest : (keyed.execute greatestOfNone).1 = .ok (.rows ⟨["max(x)"], [[.null]]⟩) := by
    decide +kernel
  have hparse : Grammar.parse greatestOfNone.sql = .ok (.word .SELECT
      [.word .MAX [.leaf .ident "x"], .word .FROM [.table "a" []],
        .word .WHERE [⟨.greater, ">", [.leaf .ident "x", .leaf .number "9"]⟩],
        .word .LIMIT [.leaf .number "1"]]) := by
    decide +kernel
  refine ⟨hreached, ⟨shown, hall, rfl, hfit _ _ _ _ _ keyedTexts shown _ hall hcounted⟩, hcounted,
    fun clock => htimeless _ _ clock hplan rfl, ?_⟩
  have hcalls : Planning.Calls (.word .MAX [.leaf .ident "x"]) := ⟨.MAX, rfl, rfl⟩
  obtain ⟨labels, row, hrow⟩ := hone greatestOfNone _ _ hparse rfl ⟨_, List.mem_cons_self, hcalls⟩
    (by decide) (fun n hn => Option.some.inj (show some 1 = some n from hn) ▸ Nat.le_refl 1)
    hgreatest
  exact ⟨labels, row, hrow ▸ hgreatest⟩

end Session
end MiniSql
