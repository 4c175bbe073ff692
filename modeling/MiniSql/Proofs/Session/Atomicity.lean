/-
# What a refused statement leaves

A statement that is refused leaves the database as it was, with one exception. An `INSERT` stores
its rows before it looks up the column that it returns, so where only this look-up fails the rows
stay (`Session.execute_refused`).

| what refuses the statement | what it leaves |
| --- | --- |
| the grammar, the plan, the locks | the database |
| a value, a constraint, a key | the database |
| the column to return | what the `INSERT` leaves without its `RETURNING` |
-/

import MiniSql.Proofs.Session.Step

namespace MiniSql

open Timed

variable {t t' : Time.Clock} {start : Int64}

/-- The plan is an `INSERT` that returns a column. -/
def Plan.returns : Plan → Bool
  | insert _ _ _ (some _) => true
  | _ => false

/-- The plan, with no column to return. -/
def Plan.withoutReturning : Plan → Plan
  | insert table columns rows _ => insert table columns rows none
  | p => p

/-- The statement is an `INSERT` that returns a column, and without its `RETURNING` it would leave
this catalog. -/
def Session.StoresFirst (s : Session) (st : Statement) (c : Catalog) : Prop :=
  ∃ plan answer clock,
    Plan.ofText st.sql st.arguments s.database.options.strictParams = .ok plan ∧
      plan.returns = true ∧
      Gives (plan.withoutReturning.run s.database.options.autoincrementStart s.database.catalog)
        s.clock (c, .ok answer) clock

/-! ## The plan of an insert -/

/-- An insert gives each row the next id. -/
theorem Mutation.nextId_insert {r r' : Relation} {columns : List String}
    {rows : List (List Expression)} {stored : Relation.Inserted}
    (h : Gives (insert r columns rows) t (r', stored) t') :
    r'.nextId = r.nextId + rows.length := by
  obtain ⟨slots, mid, hslots, h⟩ := gives_bind.1 h
  obtain ⟨completed, n, hrows, -, rfl, -⟩ := Relation.gives_insert.1 h
  show (completed.foldl Relation.push r).nextId = _
  rw [Relation.nextId_pushAll, hslots.mapM.length_eq,
    (Relation.completeRows_each hrows).length_eq]

/-- What an insert returns is looked up after its rows are stored. -/
theorem Plan.gives_run_insert {c c' : Catalog} {table : String} {columns : List String}
    {rows : List (List Expression)} {returning : Option ColumnRef} {answer : Except Error Answer} :
    Gives ((insert table columns rows returning).run start c) t (c', answer) t' ↔
      c.grant (LockRequest.write .empty table) = .ok () ∧
        ∃ r r' stored, c.tableToWrite (LockRequest.write .empty table) table = .ok r ∧
          Gives (Mutation.insert r columns rows) t (r', stored) t' ∧ c' = c.put table r' ∧
          answer = Answer.ofInsert r.schema returning stored := by
  simp only [run, carryOut, locks, gives_bind, gives_ofExcept, gives_pure, Prod.exists,
    Prod.mk.injEq]
  constructor
  · rintro ⟨_, _, ⟨hgrant, rfl⟩, r, _, ⟨hr, rfl⟩, r', stored, _, hinsert, ⟨rfl, rfl⟩, rfl⟩
    exact ⟨hgrant, r, r', stored, hr, hinsert, rfl, rfl⟩
  · rintro ⟨hgrant, r, r', stored, hr, hinsert, rfl, rfl⟩
    exact ⟨(), t, ⟨hgrant, rfl⟩, r, t, ⟨hr, rfl⟩, r', stored, t', hinsert, ⟨rfl, rfl⟩, rfl⟩

/-- A plan that runs and yet refuses returns a column, and would not refuse without it. -/
theorem Plan.gives_withoutReturning {p : Plan} {c c' : Catalog} {e : Error}
    (h : Gives (p.run start c) t (c', .error e) t') :
    p.returns = true ∧ ∃ answer, Gives (p.withoutReturning.run start c) t (c', .ok answer) t' := by
  cases p
  case insert table columns rows returning =>
    obtain ⟨hgrant, r, r', stored, hr, hinsert, rfl, hanswer⟩ := gives_run_insert.1 h
    cases returning with
    | none => cases hanswer
    | some column =>
      exact ⟨rfl, _, gives_run_insert.2 ⟨hgrant, r, r', stored, hr, hinsert, rfl, rfl⟩⟩
  all_goals
    simp only [run, carryOut, gives_bind, gives_pure, Prod.mk.injEq, reduceCtorEq, and_false,
      false_and, exists_false] at h

/-- A plan that returns a column changes the same table as without it, and does change it. -/
theorem Plan.gives_of_withoutReturning {p : Plan} {c c' : Catalog} {answer : Except Error Answer}
    (hp : p.Proper) (hreturns : p.returns = true)
    (h : Gives (p.withoutReturning.run start c) t (c', answer) t') :
    c' ≠ c ∧ ∃ answer, Gives (p.run start c) t (c', answer) t' := by
  cases p
  case insert table columns rows returning =>
    obtain ⟨hgrant, r, r', stored, hr, hinsert, rfl, -⟩ := gives_run_insert.1 h
    refine ⟨fun heq => ?_, _, gives_run_insert.2 ⟨hgrant, r, r', stored, hr, hinsert, rfl, rfl⟩⟩
    have hget : (c.put table r').tables.get? table = some r' := by
      rw [Catalog.put, SortedMap.get?_insert, if_pos rfl]
    rw [heq, Catalog.get?_of_tableToWrite hr] at hget
    have hid := Mutation.nextId_insert hinsert
    have hrows := List.length_pos_of_ne_nil hp
    rw [Option.some.inj hget] at hid
    omega
  all_goals cases hreturns

/-! ## A refused statement -/

namespace Session

variable {s s' : Session} {st : Statement} {e : Error}

/-- **A refused statement changes the database** exactly when it is an `INSERT` that returns a
column and would be carried out without its `RETURNING`; then it leaves what it would leave so. -/
theorem execute_refused (h : s.execute st = (.error e, s')) :
    (s'.database ≠ s.database ↔ ∃ c, s.StoresFirst st c) ∧
      ∀ c, s.StoresFirst st c → s'.database = { s.database with catalog := c } := by
  have hrun : (s.database.execute st.sql st.arguments).run s.clock =
      ((.error e, s'.database), s'.clock) := by
    unfold execute at h
    rcases hx : (s.database.execute st.sql st.arguments).run s.clock with ⟨⟨_, _⟩, _⟩
    rw [hx] at h
    cases h
    rfl
  have hstores : ∀ c, s.StoresFirst st c →
      c ≠ s.database.catalog ∧ s'.database = { s.database with catalog := c } := by
    rintro c ⟨plan, answer, clock, hplan, hreturns, hgives⟩
    obtain ⟨hne, answer', hgives⟩ :=
      Plan.gives_of_withoutReturning (Plan.proper_of_ofText hplan) hreturns hgives
    have hexecute := Database.execute_of_gives hplan hgives
    rw [hrun] at hexecute
    exact ⟨hne, congrArg (·.1.2) hexecute⟩
  refine ⟨⟨fun hne => ?_, fun ⟨c, hc⟩ heq => ?_⟩, fun c hc => (hstores c hc).2⟩
  · rcases Database.execute_cases hrun with ⟨heq, -⟩ | ⟨plan, c, hplan, hgives, -⟩
    · exact absurd heq hne
    · obtain ⟨hreturns, answer, hgives⟩ := Plan.gives_withoutReturning hgives
      exact ⟨c, plan, answer, s'.clock, hplan, hreturns, hgives⟩
  · obtain ⟨hne, hdatabase⟩ := hstores c hc
    rw [heq] at hdatabase
    exact hne (congrArg Database.catalog hdatabase).symm

/-- A session with an empty table of one column. -/
def oneColumn : Session := ((new .standard ⟨0, []⟩).execute ⟨"CREATE TABLE t (a INT)", []⟩).2

/-- An `INSERT` that returns a column which its table lacks. -/
def returnsUnknown : Statement := ⟨"INSERT INTO t VALUES (1) RETURNING nope", []⟩

/-- The exception is met: the statement is refused, and its row stays. -/
theorem execute_refused_returnsUnknown :
    (oneColumn.execute returnsUnknown).1 = .error (.schema (.noColumn ⟨none, "nope"⟩)) ∧
      (oneColumn.execute returnsUnknown).2.database ≠ oneColumn.database ∧
      ∃ c, oneColumn.StoresFirst returnsUnknown c := by
  have hrefused : (oneColumn.execute returnsUnknown).1 =
      .error (.schema (.noColumn ⟨none, "nope"⟩)) := by
    decide +kernel
  have hchanged : (oneColumn.execute returnsUnknown).2.database ≠ oneColumn.database := by
    intro heq
    have hids : (oneColumn.execute returnsUnknown).2.database.catalog.tables.entries.map
        (fun e => e.2.nextId) = oneColumn.database.catalog.tables.entries.map
        (fun e => e.2.nextId) := by rw [heq]
    revert hids
    decide +kernel
  exact ⟨hrefused, hchanged, (execute_refused (Prod.ext hrefused rfl)).1.1 hchanged⟩

end Session
end MiniSql
