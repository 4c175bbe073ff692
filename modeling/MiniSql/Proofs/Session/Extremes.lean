/-
# `MIN` and `MAX` beside `ORDER BY`

Queries that have their tables, joins and `WHERE` in common read the same rows, or are refused for
one reason. Of the values of one column of these rows (`Session.Reached.execute_extremes`)

| query | shows |
| --- | --- |
| `SELECT c … WHERE p` | all, as the rows stand |
| `SELECT c … WHERE p ORDER BY c` | all, sorted |
| `SELECT MIN(c) … WHERE p` | the first sorted one that is not `NULL` |
| `SELECT MAX(c) … WHERE p` | the last sorted one |

as far as all of them are numbers. What is not a number is sorted before or behind all numbers, as
its sign says, but `MIN` and `MAX` keep it where it comes first among the rows and pass it over
elsewhere. So they agree with `ORDER BY` exactly where the first value of the rows and the sorted
value meet, that is, are one value or both are numbers. And two tables that hold the same rows in
different orders have the same least and greatest value exactly where the first values of both meet.
-/

import MiniSql.Proofs.Plan.Conditioned
import MiniSql.Proofs.Query.Count
import MiniSql.Proofs.Query.Extreme
import MiniSql.Proofs.Query.Reaches
import MiniSql.Proofs.Query.Timeless

namespace MiniSql

open Timed
open Grammar (Tree)

namespace Grammar

/-- Four texts that have their tables, joins and predicate in common: one shows a column, one shows
it sorted, and the others ask for its least and its greatest value. -/
structure ExtremeTexts (tables joins : List Tree) (p : Tree) (c : ColumnRef) where
  plain : String
  sorted : String
  least : String
  greatest : String
  onlyJoins : ∀ t ∈ joins, t.isWord .JOIN = true
  parse_plain : parse plain = .ok (.selectWhere (.column c) tables joins p [])
  parse_sorted : parse sorted = .ok (.selectWhere (.column c) tables joins p [.orderBy c])
  parse_least : parse least = .ok (.selectWhere (.word .MIN [.column c]) tables joins p [])
  parse_greatest : parse greatest = .ok (.selectWhere (.word .MAX [.column c]) tables joins p [])

/-- The four texts. -/
def ExtremeTexts.all {tables joins : List Tree} {p : Tree} {c : ColumnRef}
    (texts : ExtremeTexts tables joins p c) : List String :=
  [texts.plain, texts.sorted, texts.least, texts.greatest]

/-- What differs between them is one item without placeholders, and a clause. -/
theorem ExtremeTexts.spelled {tables joins : List Tree} {p : Tree} {c : ColumnRef}
    (texts : ExtremeTexts tables joins p c) (arguments : List Value) :
    ∀ text ∈ texts.all, ∃ item others,
      parse text = .ok (.selectWhere item tables joins p others) ∧
      Arguments.placeholders item = [] ∧ (∀ t ∈ others, Arguments.placeholders t = []) ∧
      (∀ t ∈ others, ∃ u, Spells.Clause u t) ∧
      ∃ d, ({} : Planning.Draft).add arguments item = .ok d ∧ d.source = none := by
  have hnone (P : Tree → Prop) : ∀ t ∈ [], P t := List.forall_mem_nil P
  have hcolumn : ({} : Planning.Draft).add arguments (.column c) = _ := Planning.add_column c
  simp only [all, List.forall_mem_cons]
  refine ⟨?_, ?_, ?_, ?_, List.forall_mem_nil _⟩
  · exact ⟨_, _, texts.parse_plain, by simp, hnone _, hnone _, _, hcolumn, rfl⟩
  · exact ⟨_, _, texts.parse_sorted, by simp, by simp, by simpa using exists_orderBy c, _, hcolumn,
      rfl⟩
  · exact ⟨_, _, texts.parse_least, by simp, hnone _, hnone _, _, Planning.add_call rfl _, rfl⟩
  · exact ⟨_, _, texts.parse_greatest, by simp, hnone _, hnone _, _, Planning.add_call rfl _, rfl⟩

end Grammar

/-! ## What is made of the rows -/

namespace Rowset

variable {c : ColumnRef} {i : Nat} {types : List DataType}

/-- Answers of one column are the same if the label and the values are. -/
theorem single_inj {label label' : String} {values values' : List Value}
    (h : single label values = single label' values') : label = label' ∧ values = values' := by
  obtain ⟨hlabel, hrows⟩ := Rowset.mk.inj h
  have hvalues : values = values' :=
    List.map_injective_iff.2 (fun _ _ h => List.head_eq_of_cons_eq h) hrows
  exact ⟨List.head_eq_of_cons_eq hlabel, hvalues⟩

/-- To choose one column is to list its values. -/
theorem project_column (s : Rowset) (c : ColumnRef) : s.project [.column c] =
    (fun i => single (labelColumn (s.columns[i]?.getD "")) (s.column i)) <$>
      c.resolve s.columns := by
  have hpicked : [SelectItem.column c].mapM (pick s.columns) =
      (fun i => [[i]]) <$> c.resolve s.columns := by
    rw [List.mapM_cons]
    show ((do return [← c.resolve s.columns]) >>= _) = _
    cases c.resolve s.columns <;> rfl
  rw [project, hpicked]
  cases c.resolve s.columns with
  | error x => rfl
  | ok i => simp [single, column, Function.comp_def]

/-- To sort by one column is to sort by its values. -/
theorem sort_column (s : Rowset) (c : ColumnRef) : s.sort [(c, .ascending)] =
    (fun i => ⟨s.columns,
      s.rows.mergeSort fun a b => compareRows [(i, .ascending)] a b != .gt⟩) <$>
        c.resolve s.columns := by
  rw [sort, resolveKeys, List.mapM_cons]
  cases c.resolve s.columns <;> rfl

/-- The values of a sorted column stand in order. -/
theorem Sorts.column {rows sorted : List Row} (h : Sorts [(i, .ascending)] rows sorted) :
    (sorted.map (Relation.valueAt i)).Pairwise fun a b => a.sortOrder b ≠ .gt := by
  refine List.pairwise_map.2 (h.inOrder.imp fun hab => ?_)
  exact hab [] (i, .ascending) [] rfl fun _ hkey => nomatch hkey

end Rowset

namespace Rowset

variable {s s' set : Rowset} {e : Expression} {t t' : Time.Clock}

/-- Of the same rows in another order a filter keeps the same ones, if its predicate says the same
under both labels and does not ask for the time. -/
theorem filter_perm (he : e.readsClock = false)
    (hcolumns : ∀ c ∈ e.columns, c.resolve s'.columns = c.resolve s.columns)
    (hperm : s'.rows.Perm s.rows) (h : Gives (s.filter e) t set t') (clock : Time.Clock) :
    set.columns = s.columns ∧
      ∃ rows, rows.Perm set.rows ∧ Gives (s'.filter e) clock ⟨s'.columns, rows⟩ clock := by
  obtain ⟨kept, mid, hkept, hset⟩ := gives_bind.1 h
  obtain ⟨rfl, -⟩ := gives_pure.1 hset
  obtain ⟨hdecides, rfl, -⟩ := (gives_keep he).1 hkept
  refine ⟨rfl, s'.rows.filter (e.picks s.columns), hperm.filter _, ?_⟩
  refine gives_bind.2 ⟨_, clock, ?_, gives_pure.2 ⟨rfl, rfl⟩⟩
  rw [Expression.holds_congr hcolumns]
  exact (gives_keep he).2 ⟨fun row hrow => hdecides row (hperm.mem_iff.1 hrow), rfl, rfl⟩

end Rowset

/-! ## What four texts show -/

/-- The values of a column, the same sorted, and the least and the greatest of them. -/
structure ShownExtremes where
  label : String
  values : List Value
  sorted : List Value
  least : Value
  greatest : Value

namespace ShownExtremes

/-- The least value is the same as the first sorted one, and the greatest as the last. -/
structure Agrees (shown : ShownExtremes) : Prop where
  first : ∀ w, (Aggregate.present shown.sorted).head? = some w → shown.least.Same w
  last : ∀ w, (Aggregate.present shown.sorted).getLast? = some w → shown.greatest.Same w

/-- The same values in two orders have the same least and greatest one exactly where the first ones
of both meet, and so where all are numbers. -/
structure Reorders (shown shown' : ShownExtremes) : Prop where
  perm : shown'.values.Perm shown.values
  meet : ∀ v w, (Aggregate.present shown.values).head? = some v →
    (Aggregate.present shown'.values).head? = some w →
    (shown.least.Same shown'.least ↔ v.Meet w) ∧ (shown.greatest.Same shown'.greatest ↔ v.Meet w)
  numbers : (∀ v ∈ shown.values, v.isNaN = false) →
    shown.least.Same shown'.least ∧ shown.greatest.Same shown'.greatest

end ShownExtremes

/-! ## Sessions -/

namespace Session

variable {options : Options} {s s' : Session} {st : Statement} {tables joins : List Tree} {p : Tree}
  {c : ColumnRef} {arguments : List Value} {source : Query} {e : Expression} {set : Rowset}
  {name name' : String} {r r' : Relation} {f : Rowset → Nat → Rowset} {i : Nat} {x : Error}
  {t clock : Time.Clock} {answer : Answer}

/-- The condition on one table is asked of its rows. -/
theorem gives_read_table (hr : s.table? name = some r) :
    Gives (s.read (.filter (.scan name) e)) t set clock ↔
      Gives (r.rowset.filter e) t set clock := by
  obtain ⟨hgrant, htable⟩ :=
    s.database.catalog.grant_one (rfl : (LockRequest.read .empty name).keys = [name]) hr
  have hread : s.read (.filter (.scan name) e) = r.rowset.filter e := by
    show (do
      Timed.ofExcept (s.database.catalog.grant (LockRequest.read .empty name))
      let set ← (do
        return (← Timed.ofExcept
          (s.database.catalog.table (LockRequest.read .empty name) name)).rowset)
      set.filter e) = _
    rw [hgrant, htable]
    rfl
  rw [hread]

/-! ### What is shown of one column -/

/-- The statement shows what `f` makes of one column of the rows of a query, and asks for the time
where that one does. -/
def Shows (s : Session) (st : Statement) (source : Query) (c : ColumnRef)
    (f : Rowset → Nat → Rowset) : Prop :=
  ∃ q, s.plan st = .ok (.query q) ∧ q.readsClock = source.readsClock ∧
    s.read q = s.read source >>= fun set => Timed.ofExcept (f set <$> c.resolve set.columns)

/-- A statement that shows a column answers with it where the column is found. -/
theorem Shows.answered (h : s.Shows st source c f) (hset : Gives (s.read source) s.clock set clock)
    (hc : c.resolve set.columns = .ok i) :
    s.execute st = (.ok (.rows (f set i)), ⟨s.database, clock⟩) := by
  obtain ⟨q, hplan, -, hread⟩ := h
  rw [execute_of_read hplan hread hset, hc]
  rfl

/-- A statement that shows a column is refused where the column is not found. -/
theorem Shows.refused (h : s.Shows st source c f) (hset : Gives (s.read source) s.clock set clock)
    (hc : c.resolve set.columns = .error x) :
    s.execute st = (.error x, ⟨s.database, clock⟩) := by
  obtain ⟨q, hplan, -, hread⟩ := h
  rw [execute_of_read hplan hread hset, hc]
  rfl

/-- A statement that shows a column is refused where the rows are not read. -/
theorem Shows.unread (h : s.Shows st source c f)
    (hrefused : Refuses (s.read source) s.clock x clock) :
    s.execute st = (.error x, ⟨s.database, clock⟩) := by
  obtain ⟨q, hplan, -, hread⟩ := h
  exact execute_of_unread hplan hread hrefused

/-- An answer comes from the rows that were read and the column that was found. -/
theorem Shows.of_answer (h : s.Shows st source c f) (hanswer : (s.execute st).1 = .ok answer) :
    ∃ set clock i, Gives (s.read source) s.clock set clock ∧ c.resolve set.columns = .ok i ∧
      answer = .rows (f set i) := by
  obtain ⟨q, hplan, -, hread⟩ := h
  obtain ⟨set, clock, shown, hset, hshown, rfl⟩ := read_of_answer hplan hread hanswer
  cases hc : c.resolve set.columns with
  | error x =>
    rw [hc] at hshown
    cases hshown
  | ok i =>
    rw [hc] at hshown
    cases hshown
    exact ⟨set, clock, i, hset, hc, rfl⟩

/-- What reads no clock answers alike at all times. -/
theorem Shows.timeless (h : s.Shows st source c f) (hclock : source.readsClock = false)
    (clock : Time.Clock) :
    ((⟨s.database, clock⟩ : Session).execute st).1 = (s.execute st).1 := by
  obtain ⟨q, hplan, hq, -⟩ := h
  rw [execute_timeless hplan (hq.trans hclock) clock]

/-! ### The four texts -/

/-- The values of one column. -/
def shownColumn (set : Rowset) (i : Nat) : Rowset :=
  .single (labelColumn (set.columns[i]?.getD "")) (set.column i)

/-- The values of one column, sorted. -/
def sortedColumn (set : Rowset) (i : Nat) : Rowset :=
  .single (labelColumn (set.columns[i]?.getD ""))
    ((set.rows.mergeSort fun a b => Rowset.compareRows [(i, .ascending)] a b != .gt).map
      (Relation.valueAt i))

/-- The value of a column that is kept. -/
def extremeColumn (call : AggregateCall) (wanted : Ordering) (set : Rowset) (i : Nat) : Rowset :=
  .single call.text [((set.column i).foldl (Aggregate.extreme wanted) none).getD .null]

/-- The four texts are about one column of the rows of one query. -/
structure PlansExtremes (s : Session) (arguments : List Value)
    (texts : Grammar.ExtremeTexts tables joins p c) (source : Query) : Prop where
  plain : s.Shows ⟨texts.plain, arguments⟩ source c shownColumn
  sorted : s.Shows ⟨texts.sorted, arguments⟩ source c sortedColumn
  least : s.Shows ⟨texts.least, arguments⟩ source c (extremeColumn ⟨.min, some c⟩ .lt)
  greatest : s.Shows ⟨texts.greatest, arguments⟩ source c (extremeColumn ⟨.max, some c⟩ .gt)

/-- The three texts are planned over the same rows. -/
theorem plansExtremes (texts : Grammar.ExtremeTexts tables joins p c)
    (hcheck : Arguments.check (.selectWhere (.leaf .asterisk "*") tables joins p [])
      arguments.length s.database.options.strictParams = .ok ())
    (hsame : Planning.Conditioned arguments tables joins p source e) :
    s.PlansExtremes arguments texts (.filter source e) := by
  have hjoins := texts.onlyJoins
  have called {f : Aggregate} {wanted : Ordering} (hf : ∀ values, f.value values =
      .ok ((values.foldl (Aggregate.extreme wanted) none).getD .null)) :
      s.read (.aggregate (.filter source e) [⟨f, some c⟩]) =
        s.read (.filter source e) >>= fun set =>
          Timed.ofExcept (extremeColumn ⟨f, some c⟩ wanted set <$> c.resolve set.columns) := by
    refine (s.read_aggregate (.filter source e) _ none none).trans (bind_congr fun set => ?_)
    rw [Rowset.aggregate_column hf]
    cases c.resolve set.columns <;> rfl
  have hplain := (plan_selectWhere hcheck texts.parse_plain (by simp) rfl (by simp)).trans
    (hsame.select_column hjoins c)
  have hsorted := (plan_selectWhere hcheck texts.parse_sorted (by simp) rfl (by simp)).trans
    (hsame.select_orderBy hjoins c)
  have hleast := (plan_selectWhere hcheck texts.parse_least (by simp) rfl (by simp)).trans
    (hsame.select_call hjoins rfl _)
  have hgreatest := (plan_selectWhere hcheck texts.parse_greatest (by simp) rfl (by simp)).trans
    (hsame.select_call hjoins rfl _)
  rw [Grammar.columnRef_column] at hleast hgreatest
  refine ⟨⟨_, hplain, rfl, ?_⟩, ⟨_, hsorted, rfl, ?_⟩, ⟨_, hleast, rfl, called fun _ => rfl⟩,
    ⟨_, hgreatest, rfl, called fun _ => rfl⟩⟩
  · refine (s.read_paged (.filter source e) none none _).trans (bind_congr fun set => ?_)
    exact congrArg Timed.ofExcept (Rowset.project_column set c)
  · refine (s.read_sorted (.filter source e) _ none none _).trans (bind_congr fun set => ?_)
    refine congrArg Timed.ofExcept ?_
    rw [Rowset.sort_column]
    cases hc : c.resolve set.columns with
    | error x => rfl
    | ok i =>
      refine (Rowset.project_column _ c).trans ?_
      show _ <$> c.resolve set.columns = _
      rw [hc]
      rfl

/-- What the four texts show is `shown`. -/
structure AnswersExtremes (s : Session) (arguments : List Value)
    (texts : Grammar.ExtremeTexts tables joins p c) (shown : ShownExtremes) : Prop where
  plain : (s.execute ⟨texts.plain, arguments⟩).1 = .ok (.rows (.single shown.label shown.values))
  sorted : (s.execute ⟨texts.sorted, arguments⟩).1 = .ok (.rows (.single shown.label shown.sorted))
  least : (s.execute ⟨texts.least, arguments⟩).1 =
    .ok (.rows (.single (AggregateCall.text ⟨.min, some c⟩) [shown.least]))
  greatest : (s.execute ⟨texts.greatest, arguments⟩).1 =
    .ok (.rows (.single (AggregateCall.text ⟨.max, some c⟩) [shown.greatest]))
  typed : ∃ type, ∀ v ∈ shown.values, v.Among (· = type)
  extremes : Aggregate.Extremes shown.values shown.sorted shown.least shown.greatest

/-- Where the rows can be read and have the column all four are answered. -/
theorem Reached.answersExtremes (hs : s.Reached options)
    {texts : Grammar.ExtremeTexts tables joins p c}
    (hplans : s.PlansExtremes arguments texts source) (hsource : source.Tabular)
    (hset : Gives (s.read source) s.clock set clock) (hc : c.resolve set.columns = .ok i) :
    ∃ shown, s.AnswersExtremes arguments texts shown ∧ shown.values = set.column i := by
  obtain ⟨types, htypes⟩ := hs.typed_of_read hsource hset
  obtain ⟨type, htype⟩ := Rowset.exists_type types i
  have hvalues : ∀ v ∈ set.column i, v.Among (· = type) :=
    List.forall_mem_map.2 fun row hrow => htype row (htypes.rows row hrow)
  have hsorts : Rowset.Sorts [(i, .ascending)] set.rows _ := Rowset.sorts_mergeSort htypes.rows
  refine ⟨⟨labelColumn (set.columns[i]?.getD ""), _, _, _, _⟩, ⟨?_, ?_, ?_, ?_, ⟨type, hvalues⟩,
    Aggregate.extremes_of_sorted hvalues (hsorts.perm.map _) hsorts.column⟩, rfl⟩
  · exact congrArg (·.1) (hplans.plain.answered hset hc)
  · exact congrArg (·.1) (hplans.sorted.answered hset hc)
  · exact congrArg (·.1) (hplans.least.answered hset hc)
  · exact congrArg (·.1) (hplans.greatest.answered hset hc)

namespace AnswersExtremes

variable {texts : Grammar.ExtremeTexts tables joins p c} {shown : ShownExtremes}

/-- What is answered to the first text is a column of the rows. -/
theorem column (h : s.AnswersExtremes arguments texts shown)
    (hplans : s.PlansExtremes arguments texts source) :
    ∃ set clock i, Gives (s.read source) s.clock set clock ∧ c.resolve set.columns = .ok i ∧
      shown.values = set.column i := by
  obtain ⟨set, clock, i, hset, hc, hshown⟩ := hplans.plain.of_answer h.plain
  exact ⟨set, clock, i, hset, hc, (Rowset.single_inj (Answer.rows.inj hshown)).2⟩

/-- The arguments of what is answered fit. -/
theorem check (h : s.AnswersExtremes arguments texts shown) :
    Arguments.check (.selectWhere (.leaf .asterisk "*") tables joins p []) arguments.length
      s.database.options.strictParams = .ok () := by
  obtain ⟨plan, hplan⟩ := plan_of_answer h.plain
  obtain ⟨_, hcheck, -⟩ := Except.bind_eq_ok.1
    ((Plan.ofText_selectWhere texts.parse_plain (by simp) rfl (by simp)).symm.trans hplan)
  exact hcheck

/-- A query that does not ask for the time answers all four alike at all times. -/
theorem timeless (h : s.AnswersExtremes arguments texts shown)
    (hplans : s.PlansExtremes arguments texts source) (hclock : source.readsClock = false)
    (clock : Time.Clock) :
    (⟨s.database, clock⟩ : Session).AnswersExtremes arguments texts shown where
  plain := (hplans.plain.timeless hclock clock).trans h.plain
  sorted := (hplans.sorted.timeless hclock clock).trans h.sorted
  least := (hplans.least.timeless hclock clock).trans h.least
  greatest := (hplans.greatest.timeless hclock clock).trans h.greatest
  typed := h.typed
  extremes := h.extremes

end AnswersExtremes

/-- The four texts are refused for one reason, or their plans are about the rows of one query. -/
theorem unplanned_or_plansExtremes (s : Session) (arguments : List Value)
    (texts : Grammar.ExtremeTexts tables joins p c) :
    (∃ x, ∀ text ∈ texts.all, s.plan ⟨text, arguments⟩ = .error x) ∨
      ∃ source e, Planning.Conditioned arguments tables joins p source e ∧
        s.PlansExtremes arguments texts (.filter source e) := by
  cases hcheck : Arguments.check (.selectWhere (.leaf .asterisk "*") tables joins p [])
      arguments.length s.database.options.strictParams with
  | error x =>
    refine .inl ⟨x, fun text htext => ?_⟩
    obtain ⟨item, others, hparse, hitem, hothers, -⟩ := texts.spelled arguments text htext
    rw [plan, Plan.ofText_selectWhere hparse hitem rfl hothers, hcheck]
    rfl
  | ok =>
    by_cases hsame : ∃ source e, Planning.Conditioned arguments tables joins p source e
    · obtain ⟨source, e, hsame⟩ := hsame
      exact .inr ⟨source, e, hsame, plansExtremes texts hcheck hsame⟩
    · obtain ⟨x, hx⟩ := (Planning.conditioned_or_refused texts.onlyJoins).resolve_right hsame
      refine .inl ⟨x, fun text htext => ?_⟩
      obtain ⟨item, others, hparse, hitem, hothers, hspelled, d, hd, hsource⟩ :=
        texts.spelled arguments text htext
      rw [plan_selectWhere hcheck hparse hitem rfl hothers]
      exact hx item d others hd hsource hspelled

/-- **All four texts are answered, or all are refused for one reason.** -/
theorem Reached.refused_or_answersExtremes (hs : s.Reached options)
    (texts : Grammar.ExtremeTexts tables joins p c) (arguments : List Value) :
    (∃ x clock, ∀ text ∈ texts.all,
      s.execute ⟨text, arguments⟩ = (.error x, ⟨s.database, clock⟩)) ∨
      ∃ shown, s.AnswersExtremes arguments texts shown := by
  rcases s.unplanned_or_plansExtremes arguments texts with ⟨x, hx⟩ | ⟨source, e, hsame, hplans⟩
  · exact .inl ⟨x, s.clock, fun text htext =>
      execute_eq (Database.execute_of_fault (hx text htext))⟩
  have hshows : ∀ text ∈ texts.all, ∃ f, s.Shows ⟨text, arguments⟩ (.filter source e) c f := by
    simpa [Grammar.ExtremeTexts.all] using
      ⟨⟨_, hplans.plain⟩, ⟨_, hplans.sorted⟩, ⟨_, hplans.least⟩, ⟨_, hplans.greatest⟩⟩
  rcases gives_or_refuses (s.read (.filter source e)) s.clock with
    ⟨set, clock, hset⟩ | ⟨x, clock, hrefused⟩
  · cases hc : c.resolve set.columns with
    | error x =>
      refine .inl ⟨x, clock, fun text htext => ?_⟩
      obtain ⟨f, hf⟩ := hshows text htext
      exact hf.refused hset hc
    | ok i =>
      obtain ⟨shown, h, -⟩ := hs.answersExtremes hplans (.filter hsame.tabular e) hset hc
      exact .inr ⟨shown, h⟩
  · refine .inl ⟨x, clock, fun text htext => ?_⟩
    obtain ⟨f, hf⟩ := hshows text htext
    exact hf.unread hrefused

/-- **Two tables with the same rows in different orders** are both answered, and have the same least
and greatest value exactly where the first values of both meet. -/
theorem Reached.answersExtremes_of_perm (hs : s.Reached options) (hs' : s'.Reached options)
    (hr : s.table? name = some r) (hr' : s'.table? name' = some r')
    (hperm : r'.rowset.rows.Perm r.rowset.rows) (hp : Planning.predicate arguments p = .ok e)
    (he : e.readsClock = false)
    (hcolumns : ∀ x ∈ c :: e.columns, x.resolve r'.schema.labels = x.resolve r.schema.labels)
    {texts : Grammar.ExtremeTexts [.table name []] [] p c} {shown : ShownExtremes}
    (texts' : Grammar.ExtremeTexts [.table name' []] [] p c)
    (h : s.AnswersExtremes arguments texts shown) :
    ∃ shown', s'.AnswersExtremes arguments texts' shown' ∧ shown.Reorders shown' := by
  obtain ⟨hc, hcondition⟩ := List.forall_mem_cons.1 hcolumns
  have hplans := plansExtremes texts h.check (Planning.conditioned_table name hp)
  have hcheck' : Arguments.check (.selectWhere (.leaf .asterisk "*") [.table name' []] [] p [])
      arguments.length s'.database.options.strictParams = .ok () := by
    rw [hs'.options_eq, ← hs.options_eq, ← h.check]
    exact Arguments.check_congr (by simp [Tree.selectWhere]) _ _
  have hplans' := plansExtremes texts' hcheck' (Planning.conditioned_table name' hp)
  obtain ⟨set, clock, i, hset, hi, hvalues⟩ := h.column hplans
  obtain ⟨hlabels, rows, hrows, hset'⟩ := Rowset.filter_perm he hcondition hperm
    ((gives_read_table hr).1 hset) s'.clock
  have hi' : c.resolve r'.rowset.columns = .ok i := by
    rw [← hi, hlabels]
    exact hc
  obtain ⟨shown', h', hvalues'⟩ := hs'.answersExtremes hplans' (.filter (.scan name') e)
    ((gives_read_table hr').2 hset') hi'
  have hsame : shown'.values.Perm shown.values := by
    rw [hvalues, hvalues']
    exact hrows.map _
  obtain ⟨type, htype⟩ := h.typed
  obtain ⟨hmeet, hnumbers⟩ := h.extremes.same_of_perm htype hsame h'.extremes
  exact ⟨shown', h', hsame, hmeet, hnumbers⟩

/-- **`MIN` and `MAX` beside `ORDER BY`**, in every session that can be reached and for all tables,
joins, predicates and columns. Four texts that show a column, show it sorted and ask for its least
and its greatest value are refused for one reason, or all answered. Then the least value is a best
one of those that are shown, and so is the first sorted one (`Aggregate.Extremes`): they are the
same where the first value that is shown and the first sorted one meet, so where all are numbers.
The same holds of the greatest and the last. Where nothing asks for the time the answers are the
same at all times. And a table with the same rows in another order, in this session or in another,
has the same least and greatest value exactly where the first values of both meet. -/
theorem Reached.execute_extremes (hs : s.Reached options) :
    (∀ (tables joins : List Tree) (p : Tree) (c : ColumnRef)
      (texts : Grammar.ExtremeTexts tables joins p c) (arguments : List Value),
      (∃ x clock, ∀ text ∈ texts.all,
        s.execute ⟨text, arguments⟩ = (.error x, ⟨s.database, clock⟩)) ∨
      ∃ shown, s.AnswersExtremes arguments texts shown ∧
        ((∀ v ∈ shown.values, v.isNaN = false) → shown.Agrees)) ∧
    (∀ (tables joins : List Tree) (p : Tree) (c : ColumnRef)
      (texts : Grammar.ExtremeTexts tables joins p c) (arguments : List Value) (source : Query)
      (e : Expression) (shown : ShownExtremes) (clock : Time.Clock),
      Planning.Conditioned arguments tables joins p source e →
      (Query.filter source e).readsClock = false → s.AnswersExtremes arguments texts shown →
      (⟨s.database, clock⟩ : Session).AnswersExtremes arguments texts shown) ∧
    ∀ (s' : Session) (name name' : String) (r r' : Relation) (p : Tree) (e : Expression)
      (c : ColumnRef) (texts : Grammar.ExtremeTexts [.table name []] [] p c)
      (texts' : Grammar.ExtremeTexts [.table name' []] [] p c) (arguments : List Value)
      (shown : ShownExtremes), s'.Reached options → s.table? name = some r →
      s'.table? name' = some r' → r'.rowset.rows.Perm r.rowset.rows →
      Planning.predicate arguments p = .ok e → e.readsClock = false →
      (∀ x ∈ c :: e.columns, x.resolve r'.schema.labels = x.resolve r.schema.labels) →
      s.AnswersExtremes arguments texts shown →
      ∃ shown', s'.AnswersExtremes arguments texts' shown' ∧ shown.Reorders shown' := by
  refine ⟨fun tables joins p c texts arguments => ?_, ?_, ?_⟩
  · refine (hs.refused_or_answersExtremes texts arguments).imp_right fun ⟨shown, h⟩ => ?_
    refine ⟨shown, h, fun hnumbers => ?_⟩
    obtain ⟨hfirst, hlast⟩ := h.extremes.of_numbers hnumbers
    exact ⟨hfirst, hlast⟩
  · intro tables joins p c texts arguments source e shown clock hsame hclock h
    exact h.timeless (plansExtremes texts h.check hsame) hclock clock
  · intro s' name name' r r' p e c texts texts' arguments shown hs' hr hr' hperm hp he hcolumns h
    exact hs.answersExtremes_of_perm hs' hr hr' hperm hp he hcolumns texts' h

/-- A session with two tables of the same rows. In one of them what is not a number comes first. -/
def twoOrders : Session :=
  ((new .standard ⟨0, []⟩).run [⟨"CREATE TABLE t (x FLOAT, n INT)", []⟩,
    ⟨"CREATE TABLE u (x FLOAT, n INT)", []⟩,
    ⟨"INSERT INTO t VALUES ($1, 1), (1.0, 2), (NULL, 3), (2.0, 4)", [.float .notANumber]⟩,
    ⟨"INSERT INTO u VALUES (1.0, 2), (NULL, 3), ($1, 1), (2.0, 4)", [.float .notANumber]⟩]).2

/-- `n < 4` -/
def nBelowFour : Tree := ⟨.less, "<", [.leaf .ident "n", .leaf .number "4"]⟩

/-- Four texts about the one table. -/
def extremesOfT : Grammar.ExtremeTexts [.table "t" []] [] nBelowFour ⟨none, "x"⟩ where
  plain := "SELECT x FROM t WHERE n < 4"
  sorted := "SELECT x FROM t WHERE n < 4 ORDER BY x"
  least := "SELECT MIN(x) FROM t WHERE n < 4"
  greatest := "SELECT MAX(x) FROM t WHERE n < 4"
  onlyJoins := List.forall_mem_nil _
  parse_plain := by decide +kernel
  parse_sorted := by decide +kernel
  parse_least := by decide +kernel
  parse_greatest := by decide +kernel

/-- Four texts about the other. -/
def extremesOfU : Grammar.ExtremeTexts [.table "u" []] [] nBelowFour ⟨none, "x"⟩ where
  plain := "SELECT x FROM u WHERE n < 4"
  sorted := "SELECT x FROM u WHERE n < 4 ORDER BY x"
  least := "SELECT MIN(x) FROM u WHERE n < 4"
  greatest := "SELECT MAX(x) FROM u WHERE n < 4"
  onlyJoins := List.forall_mem_nil _
  parse_plain := by decide +kernel
  parse_sorted := by decide +kernel
  parse_least := by decide +kernel
  parse_greatest := by decide +kernel

/-- What is not a number is the least value of the table in which it comes first, and a number is
that of the other table. -/
theorem execute_extremes_twoOrders :
    twoOrders.Reached .standard ∧ ∃ shown shown' : ShownExtremes,
      (∀ clock, (⟨twoOrders.database, clock⟩ : Session).AnswersExtremes [] extremesOfT shown) ∧
      twoOrders.AnswersExtremes [] extremesOfU shown' ∧
      shown.values = [.float .notANumber, .float (.ofInt 1), .null] ∧
      shown.least = .float .notANumber ∧
      shown'.values = [.float (.ofInt 1), .null, .float .notANumber] ∧
      shown'.least = .float (.ofInt 1) ∧
      shown.Reorders shown' ∧ ¬shown.least.Same shown'.least := by
  have hreached : twoOrders.Reached .standard := reached_run _ _ _
  obtain ⟨hanswered, htimeless, hreordered⟩ := hreached.execute_extremes
  have hplain : (twoOrders.execute ⟨extremesOfT.plain, []⟩).1 = .ok (.rows (.single "x"
      [.float .notANumber, .float (.ofInt 1), .null])) := by decide +kernel
  have hplain' : (twoOrders.execute ⟨extremesOfU.plain, []⟩).1 = .ok (.rows (.single "x"
      [.float (.ofInt 1), .null, .float .notANumber])) := by decide +kernel
  have hleast : (twoOrders.execute ⟨extremesOfT.least, []⟩).1 =
      .ok (.rows (.single "min(x)" [.float .notANumber])) := by decide +kernel
  have hleast' : (twoOrders.execute ⟨extremesOfU.least, []⟩).1 =
      .ok (.rows (.single "min(x)" [.float (.ofInt 1)])) := by decide +kernel
  have ht : (twoOrders.table? "t").map (·.rowset) = some ⟨["t.x", "t.n"],
      [[.float .notANumber, .integer 1], [.float (.ofInt 1), .integer 2], [.null, .integer 3],
        [.float (.ofInt 2), .integer 4]]⟩ := by decide +kernel
  have hu : (twoOrders.table? "u").map (·.rowset) = some ⟨["u.x", "u.n"],
      [[.float (.ofInt 1), .integer 2], [.null, .integer 3], [.float .notANumber, .integer 1],
        [.float (.ofInt 2), .integer 4]]⟩ := by decide +kernel
  obtain ⟨r, hr, hrows⟩ := Option.map_eq_some_iff.1 ht
  obtain ⟨r', hr', hrows'⟩ := Option.map_eq_some_iff.1 hu
  have hperm : r'.rowset.rows.Perm r.rowset.rows := by
    rw [hrows, hrows']
    decide
  let below : Expression := .compare .less (.field ⟨none, "n"⟩) (.constant (.integer 4))
  have hpredicate : Planning.predicate [] nBelowFour = .ok below := rfl
  have hcolumns : ∀ x ∈ (⟨none, "x"⟩ : ColumnRef) :: below.columns,
      x.resolve r'.rowset.columns = x.resolve r.rowset.columns := by
    rw [hrows, hrows']
    decide
  have hshown : ∃ shown, twoOrders.AnswersExtremes [] extremesOfT shown := by
    rcases hanswered _ _ _ _ extremesOfT [] with ⟨x, clock, hrefused⟩ | ⟨shown, h, -⟩
    · rw [hrefused extremesOfT.plain List.mem_cons_self] at hplain
      cases hplain
    · exact ⟨shown, h⟩
  obtain ⟨shown, h⟩ := hshown
  obtain ⟨shown', h', hsame⟩ := hreordered twoOrders "t" "u" r r' nBelowFour below ⟨none, "x"⟩
    extremesOfT extremesOfU [] shown hreached hr hr' hperm hpredicate rfl hcolumns h
  have single {label label' : String} {values values' : List Value} {st : Statement}
      (hst : (twoOrders.execute st).1 = .ok (.rows (.single label values)))
      (hst' : (twoOrders.execute st).1 = .ok (.rows (.single label' values'))) :
      values = values' :=
    (Rowset.single_inj (Answer.rows.inj (Except.ok.inj (hst.symm.trans hst')))).2
  have hvalues := single h.plain hplain
  have hvalues' := single h'.plain hplain'
  have hkept := List.head_eq_of_cons_eq (single h.least hleast)
  have hkept' := List.head_eq_of_cons_eq (single h'.least hleast')
  have hmeet : ¬(Value.float .notANumber).Meet (.float (.ofInt 1)) := by
    rintro (hequal | ⟨hnumber, -⟩)
    · exact absurd hequal (by decide +kernel)
    · exact absurd hnumber (by decide)
  refine ⟨hreached, shown, shown', fun clock => ?_, h', hvalues, hkept, hvalues', hkept', hsame,
    fun hleasts => hmeet ((hsame.meet _ _ ?_ ?_).1.1 hleasts)⟩
  · exact htimeless _ _ _ _ _ _ _ below _ clock (Planning.conditioned_table "t" hpredicate) rfl h
  · rw [hvalues]
    rfl
  · rw [hvalues']
    rfl

end Session
end MiniSql
