/-
# `ORDER BY` in a session

A query reads the rows of its tables, joined and filtered, then sorts them if it has an `ORDER BY`,
then skips and cuts, and last shows its items. With `ORDER BY` and without it reads the same rows
(`Session.Reached.execute_sorted`):

| | without | with |
| --- | --- | --- |
| the rows cannot be read | refused | refused for the same reason |
| a key is no column | the rows | refused |
| else | the rows | the rows, sorted |

In a session that can be reached every column has values of one type, since the tables are well
typed and an outer join pads with `NULL`, so that sorting orders the values of every column.
-/

import MiniSql.Proofs.Plan.Sorted
import MiniSql.Proofs.Query.Sorted
import MiniSql.Proofs.Session.Stars

namespace MiniSql

open Timed
open Grammar (Tree)

namespace Rowset

/-- The rows without those that are skipped and those that are cut off. -/
def paged (offset limit : Option Nat) (s : Rowset) : Rowset :=
  let skipped :=
    match offset with
    | some n => s.drop n
    | none => s
  match limit with
  | some n => skipped.take n
  | none => skipped

/-- Each column has values of one type, and sorting orders the values of this type. -/
def Sortable (s : Rowset) : Prop :=
  ∃ types, s.Typed types ∧ ∀ type ∈ types, Value.Preordered (Value.Among (· = type))

variable {s : Rowset} {types : List DataType}

/-- Rows with types can be sorted. -/
theorem Typed.sortable (h : s.Typed types) : s.Sortable :=
  ⟨types, h, fun type _ => Value.preordered_ofType type⟩

/-- A page of them has the same types. -/
theorem Typed.paged (h : s.Typed types) (offset limit : Option Nat) :
    (s.paged offset limit).Typed types := by
  have hskipped (n : Nat) : (s.drop n).Typed types :=
    h.of_mem rfl fun _ hrow => List.mem_of_mem_drop hrow
  have htaken {s : Rowset} (h : s.Typed types) (n : Nat) : (s.take n).Typed types :=
    h.of_mem rfl fun _ hrow => List.mem_of_mem_take hrow
  cases offset with
  | none =>
    cases limit with
    | none => exact h
    | some n => exact htaken h n
  | some m =>
    cases limit with
    | none => exact hskipped m
    | some n => exact htaken (hskipped m) n

end Rowset

namespace Query

/-- A page is of the same tables. -/
theorem tables_paged (offset limit : Option Nat) (q : Query) :
    (q.paged offset limit).tables = q.tables := by
  cases offset <;> cases limit <;> rfl

/-- To run a page is to page what is run. -/
theorem run_paged {table : String → Except Error Relation} (offset limit : Option Nat)
    (q : Query) :
    (q.paged offset limit).run table = Rowset.paged offset limit <$> q.run table := by
  cases offset <;> cases limit <;>
    simp only [paged, run, Rowset.paged, map_eq_pure_bind, bind_assoc, pure_bind, bind_pure]

end Query

/-- The statement is the other one without its `ORDER BY`, where that one is read as the tree. -/
structure Statement.Unsorted (plain sorting : Statement) (t : Tree) : Prop where
  tree : Grammar.parse plain.sql = .ok t.unsorted
  arguments : plain.arguments = sorting.arguments

namespace Session

variable {options : Options} {s : Session} {st : Statement} {source q : Query} {set : Rowset}
  {clock : Time.Clock}

/-- To read a page is to page what is read. -/
theorem read_paged (s : Session) (source : Query) (offset limit : Option Nat)
    (items : List SelectItem) :
    s.read (.projection (source.paged offset limit) items) =
      s.read source >>= fun set => Timed.ofExcept ((set.paged offset limit).project items) := by
  have hlocks : (Plan.query (.projection (source.paged offset limit) items)).locks =
      (Plan.query source).locks :=
    congrArg (List.foldl LockRequest.read .empty) (Query.tables_paged offset limit source)
  simp only [read, hlocks, Query.run, Query.run_paged, bind_assoc, bind_map_left]

/-- To read in order is to sort what is read. -/
theorem read_order (s : Session) (source : Query) (keys : List (ColumnRef × Direction)) :
    s.read (.order source keys) =
      s.read source >>= fun set => Timed.ofExcept (set.sort keys) := by
  simp only [read, Query.run, bind_assoc]
  rfl

/-- To read a page in order is to sort what is read, and to page it. -/
theorem read_sorted (s : Session) (source : Query) (keys : List (ColumnRef × Direction))
    (offset limit : Option Nat) (items : List SelectItem) :
    s.read (.projection ((Query.order source keys).paged offset limit) items) =
      s.read source >>= fun set => Timed.ofExcept (do
        let sorted ← set.sort keys
        (sorted.paged offset limit).project items) := by
  simp only [read_paged, read_order, Timed.ofExcept_bind, bind_assoc]

/-- The rows that a query of tables reads can be sorted by any of their columns. -/
theorem Reached.typed_of_read (hs : s.Reached options) (hsource : source.Tabular)
    (hset : Gives (s.read source) s.clock set clock) : ∃ types, set.Typed types := by
  obtain ⟨_, _, -, hrun⟩ := gives_bind.1 hset
  obtain ⟨rs, hgiven, hparts⟩ := hsource.run_inParts hrun
  have hfound : List.Forall₂ (fun name r => s.table? name = some r) source.tables rs :=
    hgiven.imp fun _ _ h => Catalog.get?_of_table h
  have hrs : ∀ r ∈ rs, r.WellTyped := by
    intro r hr
    obtain ⟨name, hstored⟩ := (hs.stored_of_found hfound).2 r hr
    exact hstored.wellTyped
  exact ⟨_, hparts.typed hrs⟩

/-- What a query answers with its `ORDER BY` and without, where its tables, joins and predicate give
the rows `set`. -/
structure AnswersSorted (s : Session) (sorting : Statement) (t : Tree) (offset limit : Option Nat)
    (set : Rowset) (clock : Time.Clock) : Prop where
  sortable : set.Sortable
  unsorted : ∀ plain : Statement, plain.Unsorted sorting t →
    s.execute plain = (Answer.rows <$> (set.paged offset limit).project
      (t.children.flatMap Planning.itemsOf), ⟨s.database, clock⟩)
  refused : ∀ e, Rowset.resolveKeys set.columns (t.children.flatMap Planning.keysOf) = .error e →
    s.execute sorting = (.error e, ⟨s.database, clock⟩)
  sorted : ∀ keys,
    Rowset.resolveKeys set.columns (t.children.flatMap Planning.keysOf) = .ok keys →
    ∃ rows, Rowset.Sorts keys set.rows rows ∧
      s.execute sorting = (Answer.rows <$> (Rowset.paged offset limit ⟨set.columns, rows⟩).project
        (t.children.flatMap Planning.itemsOf), ⟨s.database, clock⟩)
  shown : ∀ answer, (s.execute sorting).1 = .ok (.rows answer) → answer.Sortable

/-- A query whose rows can be read answers them sorted. -/
theorem Reached.answersSorted (hs : s.Reached options) {sorting : Statement} {t : Tree}
    {offset limit : Option Nat} (hsource : source.Tabular)
    (hsorting : s.plan sorting = .ok (.query (.projection
      ((Query.order source (t.children.flatMap Planning.keysOf)).paged offset limit)
      (t.children.flatMap Planning.itemsOf))))
    (hplain : ∀ plain : Statement, plain.Unsorted sorting t → s.plan plain =
      .ok (.query (.projection (source.paged offset limit)
        (t.children.flatMap Planning.itemsOf))))
    (hset : Gives (s.read source) s.clock set clock) :
    s.AnswersSorted sorting t offset limit set clock := by
  obtain ⟨types, htypes⟩ := hs.typed_of_read hsource hset
  have hexecute := execute_of_read hsorting (s.read_sorted source _ offset limit _) hset
  have hsorted {keys : List (Nat × Direction)}
      (hkeys : Rowset.resolveKeys set.columns (t.children.flatMap Planning.keysOf) = .ok keys) :
      s.execute sorting = (Answer.rows <$> (Rowset.paged offset limit ⟨set.columns,
        set.rows.mergeSort fun a b => Rowset.compareRows keys a b != .gt⟩).project
          (t.children.flatMap Planning.itemsOf), ⟨s.database, clock⟩) := by
    rw [hexecute, Rowset.sort_eq_ok_iff.2 ⟨keys, hkeys, rfl⟩]
    rfl
  constructor
  · exact htypes.sortable
  · exact fun plain h => execute_of_read (hplain plain h) (s.read_paged source offset limit _) hset
  · intro e hkeys
    rw [hexecute, Rowset.sort, hkeys]
    rfl
  · exact fun keys hkeys => ⟨_, Rowset.sorts_mergeSort htypes.rows, hsorted hkeys⟩
  · intro answer hanswer
    cases hkeys : Rowset.resolveKeys set.columns (t.children.flatMap Planning.keysOf) with
    | error e =>
      rw [hexecute, Rowset.sort, hkeys] at hanswer
      cases hanswer
    | ok keys =>
      have hsame : (Rowset.mk set.columns (set.rows.mergeSort fun a b =>
          Rowset.compareRows keys a b != .gt)).Typed types :=
        htypes.of_mem rfl fun _ hrow => List.mem_mergeSort.1 hrow
      rw [hsorted hkeys] at hanswer
      cases hshown : (Rowset.paged offset limit ⟨set.columns, set.rows.mergeSort fun a b =>
          Rowset.compareRows keys a b != .gt⟩).project (t.children.flatMap Planning.itemsOf) with
      | error e =>
        rw [hshown] at hanswer
        cases hanswer
      | ok shown =>
        rw [hshown] at hanswer
        cases hanswer
        obtain ⟨types', htypes'⟩ := (hsame.paged offset limit).project hshown
        exact htypes'.sortable

/-- **`ORDER BY` sorts what the query answers without it**, in every session that can be reached.
Either both are refused for the same reason, or the tables, joins and predicate give rows, and the
query answers these rows in the order of its keys, skipped, cut and shown as without. The rows are
the same, each two stand in the order of the first key on which they differ, `NULL` comes first or
last as the key ascends or descends, and rows that agree on all keys stay as they stood. Each column
has values of one type, which sorting orders. -/
theorem Reached.execute_sorted (hs : s.Reached options) {sorting : Statement} {t : Tree}
    (hparse : Grammar.parse sorting.sql = .ok t) (hkind : t.kind = .keyword .SELECT)
    (hitems : t.children.flatMap Planning.itemsOf ≠ [])
    (hkeys : t.children.flatMap Planning.keysOf ≠ []) :
    (∃ e clock, s.execute sorting = (.error e, ⟨s.database, clock⟩) ∧
      ∀ plain : Statement, plain.Unsorted sorting t →
        s.execute plain = (.error e, ⟨s.database, clock⟩)) ∨
    ∃ (source : Query) (offset limit : Option Nat) (set : Rowset) (clock : Time.Clock),
      source.Tabular ∧ source.tables = t.children.flatMap Planning.tablesOf ∧
      ((∀ c ∈ t.children, c.isWord .OFFSET = false) → offset = none) ∧
      ((∀ c ∈ t.children, c.isWord .LIMIT = false) → limit = none) ∧
      Gives (s.read source) s.clock set clock ∧
      s.AnswersSorted sorting t offset limit set clock := by
  have hplan {plain : Statement} (h : plain.Unsorted sorting t) : s.plan plain =
      Plan.ofTrees [t.unsorted] sorting.arguments s.database.options.strictParams := by
    rw [plan, Plan.ofText, h.tree, h.arguments]
  have hplanned : Planning.PlannedSorted t
      (Plan.ofTrees [t.unsorted] sorting.arguments s.database.options.strictParams)
      (s.plan sorting) := Plan.ofText_sorted hparse hkind hitems hkeys
  rcases hplanned with ⟨e, hplain, hsorting⟩ |
    ⟨source, offset, limit, hsource, htables, hoffset, hlimit, hplain, hsorting⟩
  · refine .inl ⟨e, s.clock, execute_eq (Database.execute_of_fault hsorting), fun plain h => ?_⟩
    exact execute_eq (Database.execute_of_fault ((hplan h).trans hplain))
  · rcases gives_or_refuses (s.read source) s.clock with
      ⟨set, clock, hset⟩ | ⟨e, clock, hrefused⟩
    · refine .inr ⟨source, offset, limit, set, clock, hsource, htables, hoffset, hlimit, hset, ?_⟩
      exact hs.answersSorted hsource hsorting (fun plain h => (hplan h).trans hplain) hset
    · refine .inl ⟨e, clock, ?_, fun plain h => ?_⟩
      · exact execute_of_unread hsorting (s.read_sorted source _ offset limit _) hrefused
      · exact execute_of_unread ((hplan h).trans hplain) (s.read_paged source offset limit _)
          hrefused

/-- A session with two tables, of which one has a number that is none and a `NULL`. -/
def measured : Session :=
  ((new .standard ⟨0, []⟩).run [⟨"CREATE TABLE a (id INT, n INT, x FLOAT)", []⟩,
    ⟨"CREATE TABLE b (n INT, s TEXT)", []⟩,
    ⟨"INSERT INTO a VALUES (1, 1, 2), (2, 2, NULL), (3, 3, $1), (4, 1, 2)", [.float .notANumber]⟩,
    ⟨"INSERT INTO b VALUES (1, 'q'), (1, 'p')", []⟩]).2

/-- A query of both, sorted up by one column and down by another. -/
def bothWays : Statement :=
  ⟨"SELECT id, s FROM a LEFT JOIN b ON a.n = b.n ORDER BY s, x DESC", []⟩

/-- Its tree. -/
def bothWaysTree : Tree :=
  .word .SELECT [.leaf .ident "id", .leaf .ident "s", .word .FROM [.table "a" []],
    .word .JOIN [.word .LEFT [], .table "b" [], .word .ON [⟨.equal, "=",
      [⟨.ident, "n", [.table "a" []]⟩, ⟨.ident, "n", [.table "b" []]⟩]⟩]], .implicitWhere,
    ⟨.keyword .ORDER, "order by", [.word .ASC [.leaf .ident "s"], .word .DESC [.leaf .ident "x"]]⟩]

/-- The same query without its `ORDER BY`. -/
def noWay : Statement := ⟨"SELECT id, s FROM a LEFT JOIN b ON a.n = b.n", []⟩

/-- The rows that it sorts. -/
def joined : Rowset := ⟨["a.id", "a.n", "a.x", "b.n", "b.s"],
  [[.integer 1, .integer 1, .float (.ofInt 2), .integer 1, .text "q"],
    [.integer 1, .integer 1, .float (.ofInt 2), .integer 1, .text "p"],
    [.integer 2, .integer 2, .null, .null, .null],
    [.integer 3, .integer 3, .float .notANumber, .null, .null],
    [.integer 4, .integer 1, .float (.ofInt 2), .integer 1, .text "q"],
    [.integer 4, .integer 1, .float (.ofInt 2), .integer 1, .text "p"]]⟩

/-- The rows without a partner come first, that with a `NULL` behind that with what is no number,
and of the others those that agree on both columns stay as they stood. -/
theorem execute_sorted_bothWays :
    measured.Reached .standard ∧
      (measured.execute noWay).1 = .ok (.rows ⟨["id", "s"],
        [[.integer 1, .text "q"], [.integer 1, .text "p"], [.integer 2, .null], [.integer 3, .null],
          [.integer 4, .text "q"], [.integer 4, .text "p"]]⟩) ∧
      (measured.execute bothWays).1 = .ok (.rows ⟨["id", "s"],
        [[.integer 3, .null], [.integer 2, .null], [.integer 1, .text "p"], [.integer 4, .text "p"],
          [.integer 1, .text "q"], [.integer 4, .text "q"]]⟩) ∧
      ∃ (set : Rowset) (keys : List (Nat × Direction)) (rows : List Row), set.Sortable ∧
        Rowset.Sorts keys set.rows rows ∧
        (measured.execute noWay).1 =
          Answer.rows <$> set.project [.column ⟨none, "id"⟩, .column ⟨none, "s"⟩] ∧
        (measured.execute bothWays).1 = Answer.rows <$> (Rowset.mk set.columns rows).project
          [.column ⟨none, "id"⟩, .column ⟨none, "s"⟩] := by
  have hreached : measured.Reached .standard := reached_run _ _ _
  have hparse : Grammar.parse bothWays.sql = .ok bothWaysTree := by decide +kernel
  have hwithout : noWay.Unsorted bothWays bothWaysTree := ⟨by decide +kernel, rfl⟩
  have hstrict : measured.database.options.strictParams = Options.standard.strictParams :=
    congrArg Options.strictParams (options_run _ _)
  let source : Query := .filter (.join (.scan "a") (.scan "b")
    (some (.compare .equal (.field ⟨some "a", "n"⟩) (.field ⟨some "b", "n"⟩))) true)
    (.constant (.integer 1))
  have hjoined : Gives (measured.read source) measured.clock joined measured.clock := by
    show @Eq (Except Error Rowset × Time.Clock) _ _
    decide +kernel
  have hplain : (measured.execute noWay).1 = .ok (.rows ⟨["id", "s"],
      [[.integer 1, .text "q"], [.integer 1, .text "p"], [.integer 2, .null], [.integer 3, .null],
        [.integer 4, .text "q"], [.integer 4, .text "p"]]⟩) := by
    have hplan : measured.plan noWay = .ok (.query (.projection (source.paged none none)
        [.column ⟨none, "id"⟩, .column ⟨none, "s"⟩])) := by
      rw [plan, Plan.ofText, hwithout.tree, hstrict]
      decide +kernel
    rw [execute_of_read hplan (measured.read_paged source none none _) hjoined]
    decide +kernel
  have hsorting : (measured.execute bothWays).1 = .ok (.rows ⟨["id", "s"],
      [[.integer 3, .null], [.integer 2, .null], [.integer 1, .text "p"], [.integer 4, .text "p"],
        [.integer 1, .text "q"], [.integer 4, .text "q"]]⟩) := by
    have hplan : measured.plan bothWays = .ok (.query (.projection ((Query.order source
        [(⟨none, "s"⟩, .ascending), (⟨none, "x"⟩, .descending)]).paged none none)
        [.column ⟨none, "id"⟩, .column ⟨none, "s"⟩])) := by
      rw [plan, Plan.ofText, hparse, hstrict]
      decide +kernel
    -- Each row has a rank, and sorting the rows sorts their positions by the ranks.
    let rank (i : Nat) : Nat := [3, 2, 1, 0, 3, 2].getD i 0
    let row (i : Nat) : Row := joined.rows.getD i []
    let before (a b : Row) : Bool :=
      Rowset.compareRows [(4, .ascending), (2, .descending)] a b != .gt
    have hranks : ∀ i ∈ [0, 1, 2, 3, 4, 5], ∀ j ∈ [0, 1, 2, 3, 4, 5],
        decide (rank i ≤ rank j) = before (row i) (row j) := by
      decide +kernel
    have hpositions : [0, 1, 2, 3, 4, 5].mergeSort (fun i j => decide (rank i ≤ rank j)) =
        [3, 2, 1, 5, 0, 4] := by
      simp [List.mergeSort, rank]
    have hsorted : joined.sort [(⟨none, "s"⟩, .ascending), (⟨none, "x"⟩, .descending)] =
        .ok ⟨joined.columns, [3, 2, 1, 5, 0, 4].map row⟩ := by
      rw [← hpositions, List.map_mergeSort (s := before) hranks]
      exact Rowset.sort_eq_ok_iff.2 ⟨[(4, .ascending), (2, .descending)], by decide +kernel, rfl⟩
    rw [execute_of_read hplan (measured.read_sorted source _ none none _) hjoined, hsorted]
    decide +kernel
  rcases hreached.execute_sorted hparse rfl (by decide) (by decide) with
    ⟨e, clock, hrefused, -⟩ | ⟨_, offset, limit, set, clock, -, -, hoffset, hlimit, -, hset⟩
  · rw [hrefused] at hsorting
    cases hsorting
  · obtain rfl := hoffset (by decide)
    obtain rfl := hlimit (by decide)
    cases hresolved : Rowset.resolveKeys set.columns
        (bothWaysTree.children.flatMap Planning.keysOf) with
    | error e =>
      rw [hset.refused e hresolved] at hsorting
      cases hsorting
    | ok keys =>
      obtain ⟨rows, hrows, hanswer⟩ := hset.sorted keys hresolved
      exact ⟨hreached, hplain, hsorting, set, keys, rows, hset.sortable, hrows,
        congrArg (·.1) (hset.unsorted noWay hwithout), congrArg (·.1) hanswer⟩

end Session
end MiniSql
