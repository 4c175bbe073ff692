/-
# Pages of a query

A query with `LIMIT n OFFSET k` answers what it answers without, from the row at `k` on and `n` rows
at most, or is refused for the same reason (`Session.execute_paged`). Choosing columns does not
mind whether rows are skipped and cut before it or behind it, so this holds whatever the query shows
and however its rows come to be in order.

A query that does not ask for the current time leaves the session as it was, so its pages can be
read one after the other, or at any other time, and fit together (`Session.execute_pages`).
-/

import MiniSql.Proofs.Plan.Paged
import MiniSql.Proofs.Query.Timeless
import MiniSql.Proofs.Session.Sorted

namespace MiniSql

open Timed
open Grammar (Tree Token)

/-- The second statement is the first one with `LIMIT n OFFSET k`. -/
structure Statement.Pages (plain paged : Statement) (n k : Nat) : Prop where
  sql : Grammar.Pages plain.sql paged.sql n k
  arguments : paged.arguments = plain.arguments

/-! ## Rows -/

/-- Choosing columns does not mind whether rows are skipped and cut before it or behind it. -/
theorem Rowset.project_paged (offset limit : Option Nat) (s : Rowset) (items : List SelectItem) :
    (s.paged offset limit).project items = Rowset.paged offset limit <$> s.project items := by
  have hcolumns : (s.paged offset limit).columns = s.columns := by
    cases offset <;> cases limit <;> rfl
  unfold project
  rw [hcolumns]
  cases items.mapM (pick s.columns) with
  | error e => rfl
  | ok picked =>
    cases offset <;> cases limit <;>
      simp [Rowset.paged, drop, take, pure, Except.pure, bind, Except.bind]

/-- As many rows from each multiple on are all rows up to the last. -/
theorem flatten_pages {α : Type} (rows : List α) (n count : Nat) :
    ((List.range count).map fun i => (rows.drop (i * n)).take n).flatten =
      rows.take (count * n) := by
  induction count with
  | zero => simp
  | succ count ih =>
    rw [List.range_succ, List.map_append, List.flatten_append, ih, Nat.succ_mul, List.take_add]
    simp

namespace Session

variable {s : Session} {plain paged : Statement} {t : Tree} {n k : Nat}

/-! ## One page -/

/-- To read a page of a query is to page what it reads. -/
theorem read_pagedQuery (s : Session) (q : Query) (offset limit : Option Nat) :
    s.read (q.paged offset limit) =
      s.read q >>= fun set => Timed.ofExcept (.ok (set.paged offset limit)) := by
  have hlocks : (Plan.query (q.paged offset limit)).locks = (Plan.query q).locks :=
    congrArg (List.foldl LockRequest.read .empty) (Query.tables_paged offset limit q)
  simp only [read, hlocks, Query.run_paged, map_eq_pure_bind, bind_assoc]
  rfl

/-- The items of a page are chosen like those of all rows. -/
theorem read_pagedItems (s : Session) (source : Query) (items : List SelectItem)
    (offset limit : Option Nat) :
    s.read (.projection (source.paged offset limit) items) =
      s.read (.projection source items) >>= fun set =>
        Timed.ofExcept (.ok (set.paged offset limit)) := by
  have hplain : s.read (.projection source items) =
      s.read source >>= fun set => Timed.ofExcept (set.project items) :=
    s.read_paged source none none items
  rw [read_paged, hplain, bind_assoc]
  refine bind_congr fun set => ?_
  rw [← Timed.ofExcept_bind, Rowset.project_paged, map_eq_pure_bind]
  rfl

/-- A query and its page read the same rows, of which the page leaves out some. -/
theorem plan_paged (h : plain.Pages paged n k) (ht : Grammar.parse plain.sql = .ok t)
    (s : Session) :
    (∃ e, s.plan plain = .error e ∧ s.plan paged = .error e) ∨
      ∃ whole part : Query, s.plan plain = .ok (.query whole) ∧ s.plan paged = .ok (.query part) ∧
        s.read part = s.read whole >>= fun set =>
          Timed.ofExcept (.ok (set.paged (some k) (some n))) := by
  have hplanned := Plan.ofText_paged h.sql ht plain.arguments s.database.options.strictParams
  rw [plan, plan, h.arguments]
  generalize Plan.ofText plain.sql _ _ = x at hplanned ⊢
  generalize Plan.ofText paged.sql _ _ = y at hplanned ⊢
  cases hplanned with
  | refused e => exact .inl ⟨e, rfl, rfl⟩
  | shown source items => exact .inr ⟨_, _, rfl, rfl, s.read_pagedItems source items _ _⟩
  | called source calls => exact .inr ⟨_, _, rfl, rfl, s.read_pagedQuery _ _ _⟩

/-- **A query with `LIMIT n OFFSET k`** answers `n` rows at most of those that it answers without,
from that at `k` on, under the same columns, or is refused for the same reason. -/
theorem execute_paged (h : plain.Pages paged n k) (ht : Grammar.parse plain.sql = .ok t)
    (s : Session) :
    (∃ e, (s.execute plain).1 = .error e ∧ s.execute paged = s.execute plain) ∨
      ∃ set, (s.execute plain).1 = .ok (.rows set) ∧ s.execute paged =
        (.ok (.rows ⟨set.columns, (set.rows.drop k).take n⟩), (s.execute plain).2) := by
  rcases plan_paged h ht s with ⟨e, hplain, hpaged⟩ | ⟨whole, part, hplain, hpaged, hread⟩
  · have hrefused := execute_eq (Database.execute_of_fault hplain)
    exact .inl ⟨e, congrArg (·.1) hrefused,
      (execute_eq (Database.execute_of_fault hpaged)).trans hrefused.symm⟩
  · have hself : s.read whole = s.read whole >>= fun set => Timed.ofExcept (.ok set) :=
      (bind_pure _).symm
    rcases gives_or_refuses (s.read whole) s.clock with ⟨set, clock, hset⟩ | ⟨e, clock, hrefused⟩
    · have hwhole := execute_of_read hplain hself hset
      refine .inr ⟨set, congrArg (·.1) hwhole, ?_⟩
      rw [hwhole]
      exact execute_of_read hpaged hread hset
    · have hwhole := execute_of_unread hplain hself hrefused
      refine .inl ⟨e, congrArg (·.1) hwhole, ?_⟩
      rw [hwhole]
      exact execute_of_unread hpaged hread hrefused

/-! ## Pages that fit together -/

/-- A query is planned as one, or refused. -/
theorem plan_select (ht : Grammar.parse plain.sql = .ok t) (hkind : t.kind = .keyword .SELECT)
    (s : Session) : (∃ e, s.plan plain = .error e) ∨ ∃ q, s.plan plain = .ok (.query q) := by
  cases hplan : s.plan plain with
  | error e => exact .inl ⟨e, rfl⟩
  | ok p =>
    rw [plan, Plan.ofText, ht] at hplan
    obtain ⟨_, -, hplan⟩ := Except.bind_eq_ok.1 hplan
    rw [Planning.statement, hkind] at hplan
    obtain ⟨_, -, hplan⟩ := Except.bind_eq_ok.1 hplan
    obtain ⟨q, -, hplan⟩ := Except.bind_eq_ok.1 hplan
    cases hplan
    exact .inr ⟨q, rfl⟩

/-- The query does not ask for the current time. -/
def ClockFree (s : Session) (st : Statement) : Prop :=
  ∀ q, s.plan st = .ok (.query q) → q.readsClock = false

/-- It is answered alike at all times, and leaves the session as it was. -/
theorem ClockFree.execute (h : s.ClockFree plain) (ht : Grammar.parse plain.sql = .ok t)
    (hkind : t.kind = .keyword .SELECT) (clock : Time.Clock) :
    (⟨s.database, clock⟩ : Session).execute plain =
      ((s.execute plain).1, ⟨s.database, clock⟩) := by
  rcases plan_select ht hkind s with ⟨e, hplan⟩ | ⟨q, hplan⟩
  · rw [execute_eq (Database.execute_of_fault hplan)]
    exact execute_eq (s := ⟨s.database, clock⟩) (Database.execute_of_fault hplan)
  · exact execute_timeless hplan (h q hplan) clock

/-- Statements that leave the session as it was are answered one after the other as each is. -/
theorem run_of_steady {sts : List Statement} (h : ∀ st ∈ sts, (s.execute st).2 = s) :
    s.run sts = (sts.map fun st => (s.execute st).1, s) := by
  induction sts with
  | nil => rfl
  | cons st sts ih =>
    obtain ⟨hst, hsts⟩ := List.forall_mem_cons.1 h
    show ((s.execute st).1 :: ((s.execute st).2.run sts).1, ((s.execute st).2.run sts).2) = _
    rw [hst, ih hsts]
    rfl

/-- The query answers these rows, and `LIMIT` and `OFFSET` cut them into pages that fit together. -/
structure Paginates (s : Session) (plain : Statement) (set : Rowset) : Prop where
  /-- At any time, a page has the rows from `k` on, and `n` at most. -/
  page : ∀ {paged n k}, plain.Pages paged n k → ∀ clock,
    (⟨s.database, clock⟩ : Session).execute paged =
      (.ok (.rows ⟨set.columns, (set.rows.drop k).take n⟩), ⟨s.database, clock⟩)
  /-- The pages from the first on have all rows up to the last of them, each once and in order, and
  all rows where they are enough. -/
  all : ∀ {pages : List Statement} {n},
    (∀ i (hi : i < pages.length), plain.Pages pages[i] n (i * n)) →
    ∃ parts : List (List Row),
      s.run pages = (parts.map fun rows => .ok (.rows ⟨set.columns, rows⟩), s) ∧
      parts.flatten = set.rows.take (pages.length * n) ∧
      (set.rows.length ≤ pages.length * n → parts.flatten = set.rows)
  /-- Two pages of which the second goes on where the first ends are one page. -/
  append : ∀ {first second whole n m k}, plain.Pages first n k → plain.Pages second m (k + n) →
    plain.Pages whole (n + m) k → ∃ rows rows' : List Row, s.run [first, second, whole] =
      ([.ok (.rows ⟨set.columns, rows⟩), .ok (.rows ⟨set.columns, rows'⟩),
        .ok (.rows ⟨set.columns, rows ++ rows'⟩)], s)

/-- A statement paginates if every one of its pages is the slice it asks for. -/
theorem paginates_of_page {set : Rowset} (h : ∀ {paged n k}, plain.Pages paged n k → ∀ clock,
    (⟨s.database, clock⟩ : Session).execute paged =
      (.ok (.rows ⟨set.columns, (set.rows.drop k).take n⟩), ⟨s.database, clock⟩)) :
    s.Paginates plain set := by
  have hpage {paged : Statement} {n k : Nat} (hpaged : plain.Pages paged n k) :
      s.execute paged = (.ok (.rows ⟨set.columns, (set.rows.drop k).take n⟩), s) :=
    h hpaged s.clock
  refine ⟨h, fun {pages n} hpages => ?_, fun {first second whole n m k} hfirst hsecond hwhole => ?_⟩
  · have hsteady : ∀ st ∈ pages, (s.execute st).2 = s := by
      intro st hst
      obtain ⟨i, hi, rfl⟩ := List.getElem_of_mem hst
      rw [hpage (hpages i hi)]
    have hanswers : (pages.map fun st => (s.execute st).1) =
        ((List.range pages.length).map fun i => (set.rows.drop (i * n)).take n).map
          fun rows => .ok (.rows ⟨set.columns, rows⟩) := by
      refine List.ext_getElem (by simp) fun i hi _ => ?_
      rw [List.length_map] at hi
      simp [hpage (hpages i hi)]
    refine ⟨_, ?_, flatten_pages set.rows n pages.length, fun hlength => ?_⟩
    · rw [run_of_steady hsteady, hanswers]
    · rw [flatten_pages, List.take_of_length_le hlength]
  · refine ⟨(set.rows.drop k).take n, (set.rows.drop (k + n)).take m, ?_⟩
    have hjoined : (set.rows.drop k).take n ++ (set.rows.drop (k + n)).take m =
        (set.rows.drop k).take (n + m) := by
      rw [List.take_add, List.drop_drop]
    rw [run_of_steady, hjoined]
    · simp [hpage hfirst, hpage hsecond, hpage hwhole]
    · simp [hpage hfirst, hpage hsecond, hpage hwhole]

/-- **Pages.** A query that does not ask for the current time is refused with `LIMIT` and `OFFSET`
as it is without, or it answers rows that they cut into pages: at any time, the page `LIMIT n
OFFSET k` has the rows from `k` on and `n` of them at most. So the pages of one size from the first
on have every row once and in order, and a page and the one behind it are one larger page. -/
theorem execute_pages (ht : Grammar.parse plain.sql = .ok t) (hkind : t.kind = .keyword .SELECT)
    (hfree : s.ClockFree plain) :
    (∃ e, s.execute plain = (.error e, s) ∧ ∀ {paged n k}, plain.Pages paged n k → ∀ clock,
      (⟨s.database, clock⟩ : Session).execute paged = (.error e, ⟨s.database, clock⟩)) ∨
    ∃ set, s.execute plain = (.ok (.rows set), s) ∧ s.Paginates plain set := by
  have hsteady (clock : Time.Clock) := hfree.execute ht hkind clock
  have hself : s.execute plain = ((s.execute plain).1, s) := hsteady s.clock
  cases hanswer : (s.execute plain).1 with
  | error e =>
    refine .inl ⟨e, hself.trans (by rw [hanswer]), fun {paged n k} hpaged clock => ?_⟩
    have hplain := hsteady clock
    rw [hanswer] at hplain
    rcases execute_paged hpaged ht ⟨s.database, clock⟩ with ⟨_, -, hsame⟩ | ⟨set, hset, -⟩
    · exact hsame.trans hplain
    · rw [hplain] at hset
      cases hset
  | ok answer =>
    obtain ⟨set, rfl⟩ : ∃ set, answer = .rows set := by
      rcases plan_select ht hkind s with ⟨e, hplan⟩ | ⟨q, hplan⟩
      · rw [execute_eq (Database.execute_of_fault hplan)] at hanswer
        cases hanswer
      · have hread : s.read q = s.read q >>= fun set => Timed.ofExcept (.ok set) :=
          (bind_pure _).symm
        obtain ⟨_, _, set, -, -, hset⟩ := read_of_answer hplan hread hanswer
        exact ⟨set, hset⟩
    refine .inr ⟨set, hself.trans (by rw [hanswer]),
      paginates_of_page fun {paged n k} hpaged clock => ?_⟩
    have hplain := hsteady clock
    rw [hanswer] at hplain
    rcases execute_paged hpaged ht ⟨s.database, clock⟩ with ⟨e, hrefused, -⟩ | ⟨set', hset, hpage⟩
    · rw [hplain] at hrefused
      cases hrefused
    · rw [hplain] at hset hpage
      cases hset
      exact hpage

/-- A session with a table of letters. -/
def lettered : Session :=
  ((new .standard ⟨0, []⟩).run [⟨"CREATE TABLE t (n INT, c TEXT)", []⟩,
    ⟨"INSERT INTO t VALUES (1, 'p'), (2, 'q'), (3, 'r'), (4, 's'), (5, 't')", []⟩]).2

/-- A query that four of them answer. -/
def fourLetters : Statement := ⟨"SELECT c FROM t WHERE n < $1", [.integer 5]⟩

/-- Its pages of three. -/
def threeLetters : Statement := ⟨"SELECT c FROM t WHERE n < $1 LIMIT 3 OFFSET 0", [.integer 5]⟩

/-- The second page, with its clauses in another order. -/
def lastLetter : Statement := ⟨"SELECT c FROM t OFFSET 3 WHERE n < $1 LIMIT 3", [.integer 5]⟩

/-- The first page of three letters. -/
theorem pages_threeLetters : fourLetters.Pages threeLetters 3 0 := by
  let limit : List Token := [⟨.keyword .LIMIT, "LIMIT", 0⟩, ⟨.number, "3", 0⟩]
  let offset : List Token := [⟨.keyword .OFFSET, "OFFSET", 0⟩, ⟨.number, "0", 0⟩]
  refine ⟨⟨Grammar.tokenize "SELECT c FROM t", [],
    [Grammar.tokenize "WHERE n < $1", limit, offset], limit, offset, by decide +kernel,
    by decide +kernel, by decide +kernel, .inl rfl, by decide +kernel,
    ⟨_, _, rfl, by decide +kernel⟩, by decide +kernel, ⟨_, _, rfl, by decide +kernel⟩, ?_, ?_⟩, rfl⟩
  all_goals
    show List.map _ _ = List.map _ _
    decide +kernel

/-- The page of the last letter. -/
theorem pages_lastLetter : fourLetters.Pages lastLetter 3 3 := by
  let limit : List Token := [⟨.keyword .LIMIT, "LIMIT", 0⟩, ⟨.number, "3", 0⟩]
  let offset : List Token := [⟨.keyword .OFFSET, "OFFSET", 0⟩, ⟨.number, "3", 0⟩]
  refine ⟨⟨Grammar.tokenize "SELECT c FROM t", [],
    [offset, Grammar.tokenize "WHERE n < $1", limit], limit, offset, by decide +kernel,
    by decide +kernel, by decide +kernel, .inl rfl, by decide +kernel,
    ⟨_, _, rfl, by decide +kernel⟩, by decide +kernel, ⟨_, _, rfl, by decide +kernel⟩, ?_, ?_⟩, rfl⟩
  all_goals
    show List.map _ _ = List.map _ _
    decide +kernel

/-- Both pages together have the four rows. -/
theorem execute_pages_fourLetters :
    lettered.ClockFree fourLetters ∧ fourLetters.Pages threeLetters 3 0 ∧
      fourLetters.Pages lastLetter 3 3 ∧
      (lettered.execute fourLetters).1 =
        .ok (.rows ⟨["c"], [[.text "p"], [.text "q"], [.text "r"], [.text "s"]]⟩) ∧
      lettered.run [threeLetters, lastLetter] =
        ([.ok (.rows ⟨["c"], [[.text "p"], [.text "q"], [.text "r"]]⟩),
          .ok (.rows ⟨["c"], [[.text "s"]]⟩)], lettered) := by
  have hparse : Grammar.parse fourLetters.sql = .ok (.word .SELECT [.leaf .ident "c",
      .word .FROM [.table "t" []], .word .WHERE [⟨.less, "<", [.leaf .ident "n",
        .leaf .placeholder "$1"]⟩]]) := by decide +kernel
  have hfree : lettered.ClockFree fourLetters := by
    intro q hq
    have hplan : lettered.plan fourLetters = .ok (.query (.projection (.filter (.scan "t")
        (.compare .less (.field ⟨none, "n"⟩) (.constant (.integer 5)))) [.column ⟨none, "c"⟩])) := by
      have hstrict : lettered.database.options.strictParams = Options.standard.strictParams :=
        congrArg Options.strictParams (options_run _ _)
      rw [plan, Plan.ofText, hparse, hstrict]
      decide +kernel
    cases hplan.symm.trans hq
    rfl
  have hanswer : (lettered.execute fourLetters).1 =
      .ok (.rows ⟨["c"], [[.text "p"], [.text "q"], [.text "r"], [.text "s"]]⟩) := by
    decide +kernel
  refine ⟨hfree, pages_threeLetters, pages_lastLetter, hanswer, ?_⟩
  rcases execute_pages hparse rfl hfree with ⟨e, hrefused, -⟩ | ⟨set, hset, hpages⟩
  · rw [hrefused] at hanswer
    cases hanswer
  · rw [hset] at hanswer
    cases hanswer
    rw [run_of_steady] <;>
      simp [hpages.page pages_threeLetters lettered.clock,
        hpages.page pages_lastLetter lettered.clock]

end Session
end MiniSql
