/-
# A query, a `DELETE` and an `UPDATE` with one predicate

`SELECT * FROM t WHERE p`, `DELETE FROM t WHERE p` and `UPDATE t SET .. WHERE p` find the same rows
of `t`, unless `p` reads the clock. So what the query returns tells what the other two do, and where
it is refused they are (`Session.Reached.agree_on_predicate`):

| the query | the `DELETE` | the `UPDATE` |
| --- | --- | --- |
| returns rows | counts them, leaves the others | counts them, touches no other, or is refused |
| is refused | is refused with the same error | is refused |
-/

import MiniSql.Proofs.Plan.Filtered
import MiniSql.Proofs.Session.Invariants
import MiniSql.Proofs.Store.Writes

namespace MiniSql

open Timed
open Grammar (Tree)

/-- The statement is `UPDATE name SET .. WHERE p`, and its predicate is that of `p` with the given
arguments. -/
def Statement.UpdatesWhere (st : Statement) (name : String) (p : Tree) (arguments : List Value) :
    Prop :=
  (∃ assignments, Grammar.parse st.sql = .ok (.updateSet name assignments p)) ∧
    Planning.predicate st.arguments p = Planning.predicate arguments p

namespace Session

variable {s : Session} {st : Statement} {name : String} {p : Tree} {e : Expression}
  {query delete update : Statement}

/-- The statement is refused with this error and leaves the database. -/
def Refused (s : Session) (st : Statement) (x : Error) : Prop :=
  (s.execute st).1 = .error x ∧ (s.execute st).2.database = s.database

/-- A statement without a plan is refused. -/
theorem refused_of_fault {x : Error}
    (hplan : Plan.ofText st.sql st.arguments s.database.options.strictParams = .error x) :
    s.Refused st x := by
  have h := execute_eq (Database.execute_of_fault hplan)
  exact ⟨congrArg (·.1) h, congrArg (·.2.database) h⟩

/-- A statement with a plan that is refused is refused. -/
theorem refused_of_refuses {plan : Plan} {x : Error} {t : Time.Clock}
    (hplan : Plan.ofText st.sql st.arguments s.database.options.strictParams = .ok plan)
    (h : Refuses (plan.run s.database.options.autoincrementStart s.database.catalog) s.clock x t) :
    s.Refused st x := by
  have h := execute_eq (Database.execute_of_refuses hplan h)
  exact ⟨congrArg (·.1) h, congrArg (·.2.database) h⟩

/-! ## What the three statements find -/

/-- The table is there, and the predicate keeps these of its rows. -/
structure Keeps (s : Session) (name : String) (e : Expression) (r : Relation) (kept : List Row) :
    Prop where
  table : s.table? name = some r
  rectangular : r.rowset.Rectangular
  keeps : Gives (r.select e) s.clock kept s.clock

/-- **The query and the `DELETE`** both have rows to work on, or are refused with one error. -/
theorem keeps_or_refused (hs : s.database.catalog.WellTyped)
    (hquery : Grammar.parse query.sql = .ok (.selectAll name p))
    (hdelete : Grammar.parse delete.sql = .ok (.deleteFrom name p))
    (harguments : delete.arguments = query.arguments)
    (hclock : ∀ e, Planning.predicate query.arguments p = .ok e → e.readsClock = false) :
    (∃ e r kept, Plan.predicateOf name p query.arguments s.database.options.strictParams = .ok e ∧
      e.readsClock = false ∧ s.Keeps name e r kept) ∨
    ∃ x, s.Refused query x ∧ s.Refused delete x := by
  have hreturn : Plan.ofText query.sql query.arguments s.database.options.strictParams = _ :=
    Plan.ofText_selectAll hquery
  have hremove : Plan.ofText delete.sql delete.arguments s.database.options.strictParams =
      (do
        let e ← Plan.predicateOf name p query.arguments s.database.options.strictParams
        return .delete name e) := by
    rw [← harguments]
    exact Plan.ofText_deleteFrom hdelete
  cases hpredicate : Plan.predicateOf name p query.arguments s.database.options.strictParams with
  | error x =>
    rw [hpredicate] at hreturn hremove
    exact .inr ⟨x, refused_of_fault hreturn, refused_of_fault hremove⟩
  | ok e =>
    rw [hpredicate] at hreturn hremove
    cases hr : s.table? name with
    | none =>
      exact .inr ⟨_, refused_of_refuses hreturn (Plan.refuses_run rfl hr),
        refused_of_refuses hremove (Plan.refuses_run rfl hr)⟩
    | some r =>
      have hrows : r.rowset.Rectangular :=
        (hs _ (SortedMap.mem_entries_of_get? hr)).2.rectangular
      obtain ⟨_, -, hplanned⟩ := Except.bind_eq_ok.1 hpredicate
      have hstill := hclock e hplanned
      rcases gives_or_refuses (r.select e) s.clock with ⟨kept, t, hkept⟩ | ⟨x, t, hrefused⟩
      · obtain ⟨-, -, rfl⟩ := (Rowset.gives_keep hstill).1 hkept
        exact .inl ⟨e, r, kept, rfl, hstill, hr, hrows, hkept⟩
      · exact .inr ⟨x, refused_of_refuses hreturn ((Plan.refuses_selectAll hr hrows).2 hrefused),
          refused_of_refuses hremove ((Plan.refuses_delete hr).2 hrefused)⟩

variable {arguments : List Value} {r : Relation} {kept : List Row}

/-- The query returns the rows that are kept, and leaves the session. -/
theorem Keeps.execute_query (h : s.Keeps name e r kept)
    (hquery : Grammar.parse query.sql = .ok (.selectAll name p))
    (hpredicate : Plan.predicateOf name p query.arguments s.database.options.strictParams = .ok e) :
    s.execute query = (.ok (.rows ⟨r.schema.labels.map labelColumn, kept⟩), s) := by
  have hplan : Plan.ofText query.sql query.arguments s.database.options.strictParams =
      .ok (.selectAll name e) := by
    rw [Plan.ofText_selectAll hquery, hpredicate]
    rfl
  exact execute_eq (Database.execute_of_gives hplan
    ((Plan.gives_selectAll h.table h.rectangular).2 ⟨kept, h.keeps, rfl, rfl⟩))

/-- The `DELETE` counts them and leaves the others, of which the predicate then keeps none. -/
theorem Keeps.execute_delete (h : s.Keeps name e r kept) (hstill : e.readsClock = false)
    (hdelete : Grammar.parse delete.sql = .ok (.deleteFrom name p))
    (hpredicate :
      Plan.predicateOf name p delete.arguments s.database.options.strictParams = .ok e) :
    ∃ r', s.execute delete = (.ok (.deleted kept.length),
        ⟨{ s.database with catalog := s.database.catalog.put name r' }, s.clock⟩) ∧
      r.Without kept r' ∧ (s.execute delete).2.Keeps name e r' [] := by
  have hplan : Plan.ofText delete.sql delete.arguments s.database.options.strictParams =
      .ok (.delete name e) := by
    rw [Plan.ofText_deleteFrom hdelete, hpredicate]
    rfl
  obtain ⟨r', hgives, hwithout⟩ := Relation.delete_without hstill h.keeps
  have hexecute := execute_eq (Database.execute_of_gives hplan
    ((Plan.gives_delete h.table).2 ⟨r', _, hgives, rfl, rfl⟩))
  have htable : (s.database.catalog.put name r').tables.get? name = some r' := by
    rw [Catalog.put, SortedMap.get?_insert, if_pos rfl]
  rw [hexecute]
  exact ⟨r', rfl, hwithout, htable, hwithout.rectangular h.rectangular,
    hwithout.keeps_nothing hstill h.keeps⟩

/-- **An `UPDATE`** is refused, or it changes the rows that its predicate keeps. -/
theorem update_cases (hs : s.database.catalog.WellTyped)
    (hupdate : update.UpdatesWhere name p arguments)
    (hclock : ∀ e, Planning.predicate arguments p = .ok e → e.readsClock = false) :
    (∃ x, s.Refused update x) ∨
      ∃ e r r' kept, Planning.predicate arguments p = .ok e ∧ s.Keeps name e r kept ∧
        (s.execute update).1 = .ok (.updated kept.length) ∧
        (s.execute update).2.database =
          { s.database with catalog := s.database.catalog.put name r' } ∧
        r.ChangedIn kept r' := by
  obtain ⟨⟨assignments, hparse⟩, hsame⟩ := hupdate
  have hrun : (s.database.execute update.sql update.arguments).run s.clock =
      (((s.execute update).1, (s.execute update).2.database), (s.execute update).2.clock) := rfl
  rcases Database.execute_cases hrun with ⟨hd, x, hx⟩ | ⟨plan, c, hplan, hgives, hd⟩
  · exact .inl ⟨x, hx, hd⟩
  · obtain ⟨e, assigned, he, rfl⟩ := Plan.ofText_updateSet hparse hplan
    obtain ⟨r, r', n, hr, hchange, rfl, hanswer⟩ := Plan.gives_update hgives
    rw [hsame] at he
    obtain ⟨kept, hkept, rfl, hchanged⟩ := Relation.update_changedIn (hclock e he) hchange
    have hrows : r.rowset.Rectangular := (hs _ (SortedMap.mem_entries_of_get? hr)).2.rectangular
    exact .inr ⟨e, r, r', kept, he, ⟨hr, hrows, hkept⟩, hanswer, hd, hchanged⟩

/-- A predicate keeps one list of rows. -/
theorem Keeps.unique {r₁ r₂ : Relation} {kept₁ kept₂ : List Row} (h₁ : s.Keeps name e r₁ kept₁)
    (h₂ : s.Keeps name e r₂ kept₂) : r₁ = r₂ ∧ kept₁ = kept₂ := by
  obtain rfl := Option.some.inj (h₁.table.symm.trans h₂.table)
  have h := h₁.keeps.symm.trans h₂.keeps
  cases h
  exact ⟨rfl, rfl⟩

/-- **A query, a `DELETE` and an `UPDATE` with one predicate agree**, if it does not read the clock.
Where the query returns rows they are rows of the table, in order; the `DELETE` counts them and
leaves exactly the other rows and the other tables, so that the query then returns nothing and the
`DELETE` counts nothing; and an `UPDATE` that is not refused counts them too, leaves all other rows
as they are and all ids in their places. Where the query is refused the `DELETE` is, with the same
error, and an `UPDATE` is, unless the arguments of the query do not fit its text; they leave the
database. -/
theorem Reached.agree_on_predicate {options : Options} (hreached : s.Reached options)
    (hquery : Grammar.parse query.sql = .ok (.selectAll name p))
    (hdelete : Grammar.parse delete.sql = .ok (.deleteFrom name p))
    (harguments : delete.arguments = query.arguments)
    (hclock : ∀ e, Planning.predicate query.arguments p = .ok e → e.readsClock = false) :
    (∀ answer, (s.execute query).1 = .ok answer → ∃ set r, answer = .rows set ∧
      s.table? name = some r ∧ set.rows = (r.scan.map (·.2)).filter (· ∈ set.rows) ∧
      (∃ r', s.execute delete = (.ok (.deleted set.rows.length),
          ⟨{ s.database with catalog := s.database.catalog.put name r' }, s.clock⟩) ∧
        r.Without set.rows r' ∧
        ((s.execute delete).2.execute query).1 = .ok (.rows { set with rows := [] }) ∧
        ((s.execute delete).2.execute delete).1 = .ok (.deleted 0)) ∧
      ∀ update : Statement, update.UpdatesWhere name p query.arguments →
        (∃ x, s.Refused update x) ∨ ∃ r', (s.execute update).1 = .ok (.updated set.rows.length) ∧
          (s.execute update).2.database =
            { s.database with catalog := s.database.catalog.put name r' } ∧
          r.ChangedIn set.rows r') ∧
    ∀ x, (s.execute query).1 = .error x → s.Refused delete x ∧
      (Arguments.check (.selectAll name p) query.arguments.length options.strictParams = .ok () →
        ∀ update : Statement, update.UpdatesWhere name p query.arguments →
          ∃ x, s.Refused update x) := by
  have hs : s.database.catalog.WellTyped := .of_stored hreached.stored
  have hoptions : s.database.options = options := hreached.options_eq
  have hcases := keeps_or_refused hs hquery hdelete harguments hclock
  constructor
  · intro answer hanswer
    rcases hcases with ⟨e, r, kept, hpredicate, hstill, hkeeps⟩ | ⟨x, ⟨hx, -⟩, -⟩
    · rw [hkeeps.execute_query hquery hpredicate] at hanswer
      cases hanswer
      obtain ⟨_, -, hplanned⟩ := Except.bind_eq_ok.1 hpredicate
      have hkept := ((Rowset.gives_keep hstill).1 hkeeps.keeps).2.1
      refine ⟨_, r, rfl, hkeeps.table, Relation.kept_eq_filter hkept, ?_, fun update hupdate => ?_⟩
      · obtain ⟨r', hexecute, hwithout, hafter⟩ :=
          hkeeps.execute_delete hstill hdelete (harguments ▸ hpredicate)
        have hoptions' : (s.execute delete).2.database.options = s.database.options := by
          rw [hexecute]
        -- The predicate is planned as before in the session that the `DELETE` leaves.
        rw [← hoptions'] at hpredicate
        obtain ⟨_, hagain, -⟩ := hafter.execute_delete hstill hdelete (harguments ▸ hpredicate)
        refine ⟨r', hexecute, hwithout, ?_, congrArg (·.1) hagain⟩
        rw [hafter.execute_query hquery hpredicate, hwithout.schema]
      · rcases update_cases hs hupdate hclock with h | ⟨e', q, r', kept', he', hkeeps', h⟩
        · exact .inl h
        · -- The `UPDATE` has the predicate of the query, so it keeps the same rows.
          rw [hplanned] at he'
          cases he'
          obtain ⟨rfl, rfl⟩ := hkeeps.unique hkeeps'
          exact .inr ⟨r', h⟩
    · rw [hx] at hanswer
      cases hanswer
  · intro x hx
    rcases hcases with ⟨e, r, kept, hpredicate, hstill, hkeeps⟩ | ⟨x', ⟨hx', -⟩, hrefused⟩
    · rw [hkeeps.execute_query hquery hpredicate] at hx
      cases hx
    · rw [hx'] at hx
      cases hx
      refine ⟨hrefused, fun hfit update hupdate => ?_⟩
      rcases update_cases hs hupdate hclock with h | ⟨e, r, r', kept, he, hkeeps, -⟩
      · exact h
      · -- Then the query would have rows to return.
        have hpredicate : Plan.predicateOf name p query.arguments
            s.database.options.strictParams = .ok e := by
          rw [Plan.predicateOf, hoptions, hfit]
          exact he
        rw [hkeeps.execute_query hquery hpredicate] at hx'
        cases hx'

/-- A session with a table of three rows, one of which has a `NULL`. -/
def threeRows : Session := ((new .standard ⟨0, []⟩).run [⟨"CREATE TABLE t (a INT, b TEXT)", []⟩,
  ⟨"INSERT INTO t VALUES (2, 'x'), (1, 'y'), (0, NULL)", []⟩]).2

/-- `a > $1 OR b IS NULL` -/
def largeOrNull : Tree :=
  .word .OR [⟨.greater, ">", [.leaf .ident "a", .leaf .placeholder "$1"]⟩,
    .word .IS [.leaf .ident "b", .word .NULL []]]

/-- The three statements at work: each finds two rows. -/
theorem agree_on_predicate_threeRows :
    let query : Statement := ⟨"SELECT * FROM t WHERE a > $1 OR b IS NULL", [.integer 1]⟩
    let delete : Statement := ⟨"DELETE FROM t WHERE a > $1 OR b IS NULL", [.integer 1]⟩
    let update : Statement :=
      ⟨"UPDATE t SET b = $2 WHERE a > $1 OR b IS NULL", [.integer 1, .text "z"]⟩
    Grammar.parse query.sql = .ok (.selectAll "t" largeOrNull) ∧
      Grammar.parse delete.sql = .ok (.deleteFrom "t" largeOrNull) ∧
      update.UpdatesWhere "t" largeOrNull query.arguments ∧
      (∀ e, Planning.predicate query.arguments largeOrNull = .ok e → e.readsClock = false) ∧
      (threeRows.execute query).1 =
        .ok (.rows ⟨["a", "b"], [[.integer 2, .text "x"], [.integer 0, .null]]⟩) ∧
      (threeRows.execute delete).1 = .ok (.deleted 2) ∧
      ((threeRows.execute delete).2.execute query).1 = .ok (.rows ⟨["a", "b"], []⟩) ∧
      (threeRows.execute update).1 = .ok (.updated 2) := by
  intro query delete update
  have hquery : Grammar.parse query.sql = .ok (.selectAll "t" largeOrNull) := by decide +kernel
  have hdelete : Grammar.parse delete.sql = .ok (.deleteFrom "t" largeOrNull) := by decide +kernel
  have hpredicate : Planning.predicate query.arguments largeOrNull =
      .ok (.or (.compare .greater (.field ⟨none, "a"⟩) (.constant (.integer 1)))
        (.isNull (.field ⟨none, "b"⟩) false)) := by decide +kernel
  have hupdate : update.UpdatesWhere "t" largeOrNull query.arguments := by
    refine ⟨⟨[⟨.equal, "=", [.leaf .ident "b", .leaf .placeholder "$2"]⟩], ?_⟩, ?_⟩
    · decide +kernel
    · decide +kernel
  have hclock : ∀ e, Planning.predicate query.arguments largeOrNull = .ok e →
      e.readsClock = false := by
    intro e he
    rw [hpredicate] at he
    cases he
    rfl
  have hrows : (threeRows.execute query).1 =
      .ok (.rows ⟨["a", "b"], [[.integer 2, .text "x"], [.integer 0, .null]]⟩) := by
    decide +kernel
  have hnot : ∀ x, ¬threeRows.Refused update x := by
    rintro x ⟨hx, -⟩
    have hok : (threeRows.execute update).1.isOk = true := by decide +kernel
    rw [hx] at hok
    cases hok
  obtain ⟨set, r, hset, -, -, ⟨r', hdeleted, -, hafter, -⟩, hupdates⟩ :=
    ((reached_run .standard ⟨0, []⟩ _).agree_on_predicate hquery hdelete rfl hclock).1 _ hrows
  cases hset
  obtain ⟨_, hupdated, -⟩ := (hupdates update hupdate).resolve_left fun ⟨x, hx⟩ => hnot x hx
  exact ⟨hquery, hdelete, hupdate, hclock, hrows, congrArg (·.1) hdeleted, hafter, hupdated⟩

end Session
end MiniSql
