/-
# No statement meets an internal error

An internal error, or a position that is not there, would mean that two parts of the system do not
fit together. In every database that statements lead to they do:

| parts | theorem |
| --- | --- |
| the trees that are read and what the planner reads of them | `Planning.statement_neverInternal` |
| locks of a plan and the tables that it uses | `Query.readable`, `Catalog.tableToWrite_of_grant` |
| the rows of a query and the labels of its columns | `Query.run_rectangular` |
| the rows that an update passes over and those that it replaces | `Mutation.update_neverInternal` |
| the positions that a plan asks for and what stands there | `Plan.asks_lt` |
| placeholders and the numbers behind their signs | `Arguments.carries_of_mem_placeholders` |
-/

import MiniSql.Proofs.Plan.Accepted
import MiniSql.Proofs.Plan.Placeholders
import MiniSql.Proofs.Plan.Positions
import MiniSql.Proofs.Session.Atomicity
import MiniSql.Proofs.Session.Invariants

namespace MiniSql

open Timed

variable {t t' : Time.Clock} {start : Int64} {c c' : Catalog}

/-! ## Plans -/

/-- Creating a table never fails internally. -/
theorem Catalog.create_neverInternal (c : Catalog) (s : Schema) (ifNotExists : Bool)
    (start : Int64) : Except.NeverInternal (c.create s ifNotExists start) := by
  have hvalidate : Except.NeverInternal s.validate := by
    unfold Schema.validate
    split
    · exact .schema _
    · exact .ok ()
  refine hvalidate.bind fun _ _ => ?_
  split
  · split
    · exact .ok _
    · exact .schema _
  · exact .ok _

/-- Dropping a table never fails internally. -/
theorem Catalog.drop_neverInternal (c : Catalog) (name : String) (ifExists : Bool) :
    Except.NeverInternal (c.drop name ifExists) := by
  unfold drop
  split
  · exact .ok _
  · split
    · exact .ok _
    · exact .schema _

/-- The tables of a well-typed catalog have rows as wide as their schemas. -/
theorem Catalog.WellTyped.rectangular (hc : c.WellTyped) {q : LockRequest} :
    ∀ name r, c.table q name = .ok r → r.rowset.Rectangular := fun _ _ hr =>
  (hc _ (SortedMap.mem_entries_of_get? (get?_of_table hr))).2.rectangular

/-- **A plan whose locks are granted** is carried out without an internal error. -/
theorem Plan.carryOut_neverInternal {p : Plan} (hc : c.WellTyped)
    (hgrant : c.grant p.locks = .ok ()) :
    NeverInternal (p.carryOut start c) := by
  -- The table of a change is there, and well typed.
  have htarget {table : String} (hlocks : p.locks = LockRequest.write .empty table) :
      ∃ r, c.tableToWrite p.locks table = .ok r ∧ r.WellTyped := by
    rw [hlocks] at hgrant ⊢
    obtain ⟨r, hget, hr⟩ := Catalog.tableToWrite_of_grant hgrant
    exact ⟨r, hr, (hc _ (SortedMap.mem_entries_of_get? hget)).2⟩
  cases p with
  | createTable s ifNotExists =>
    exact (NeverInternal.ofExcept.2 (c.create_neverInternal s ifNotExists start)).bind
      fun _ _ _ _ => .pure _
  | dropTable table ifExists =>
    exact (NeverInternal.ofExcept.2 (c.drop_neverInternal table ifExists)).bind
      fun _ _ _ _ => .pure _
  | truncate table =>
    obtain ⟨r, hr, -⟩ := htarget rfl
    simp only [carryOut, hr]
    exact (NeverInternal.ofExcept.2 (.ok r)).bind fun _ _ _ _ => .pure _
  | insert table columns rows returning =>
    obtain ⟨r, hr, -⟩ := htarget rfl
    simp only [carryOut, hr]
    exact (NeverInternal.ofExcept.2 (.ok r)).bind fun _ r _ _ =>
      (Mutation.insert_neverInternal r columns rows).bind fun _ _ _ _ => .pure _
  | update table predicate assignments =>
    obtain ⟨r, hr, hwell⟩ := htarget rfl
    simp only [carryOut, hr]
    refine (NeverInternal.ofExcept.2 (.ok r)).bind fun _ r' _ hr' => ?_
    obtain rfl := Except.ok.inj (gives_ofExcept.1 hr').1
    exact (Mutation.update_neverInternal hwell predicate assignments).bind fun _ _ _ _ => .pure _
  | delete table predicate =>
    obtain ⟨r, hr, hwell⟩ := htarget rfl
    simp only [carryOut, hr]
    refine (NeverInternal.ofExcept.2 (.ok r)).bind fun _ r' _ hr' => ?_
    obtain rfl := Except.ok.inj (gives_ofExcept.1 hr').1
    exact (Mutation.delete_neverInternal hwell predicate).bind fun _ _ _ _ => .pure _
  | query q =>
    exact (Query.run_neverInternal hc.rectangular (Query.readable hgrant)).bind
      fun _ _ _ _ => .pure _

/-- **A plan** on a well-typed catalog never fails internally. -/
theorem Plan.run_neverInternal (p : Plan) (hc : c.WellTyped) : NeverInternal (p.run start c) :=
  (NeverInternal.ofExcept.2 (c.grant_neverInternal p.locks)).bind fun _ _ _ hgrant =>
    carryOut_neverInternal hc (gives_ofExcept.1 hgrant).1

/-- What a plan answers after it is carried out is an answer, or that the column to return is not
there. -/
theorem Plan.answer_neverInternal {p : Plan} {answer : Except Error Answer}
    (h : Gives (p.run start c) t (c', answer) t') : Except.NeverInternal answer := by
  cases p
  case insert table columns rows returning =>
    obtain ⟨-, r, r', stored, -, -, -, rfl⟩ := gives_run_insert.1 h
    cases returning with
    | none => exact .ok _
    | some column => exact (column.resolve_neverInternal r.schema.labels).bind fun _ _ => .ok _
  all_goals
    cases answer with
    | ok answer => exact .ok answer
    | error e =>
      simp only [run, carryOut, gives_bind, gives_pure, Prod.mk.injEq, reduceCtorEq, and_false,
        false_and, exists_false] at h

/-- **A text** executed on a well-typed catalog never fails internally. -/
theorem Database.execute_neverInternal (d : Database) (hd : d.catalog.WellTyped) (sql : String)
    (arguments : List Value) (t : Time.Clock) :
    Except.NeverInternal ((d.execute sql arguments).run t).1.1 := by
  intro cause hcause
  unfold execute at hcause
  split at hcause
  · rename_i e he
    cases hcause
    exact Plan.ofText_neverInternal sql arguments d.options.strictParams cause he
  · rename_i plan hplan
    rw [StateT.run_bind] at hcause
    rcases hrun : (plan.run d.options.autoincrementStart d.catalog).run.run t with ⟨e | ⟨c, a⟩, mid⟩
      <;> rw [hrun] at hcause <;> cases hcause
    · exact plan.run_neverInternal hd t cause mid hrun
    · exact Plan.answer_neverInternal hrun cause rfl

/-! ## Statements -/

/-- **No statement is refused with an internal error** in a state that is reached. Its
placeholders have numbers behind their signs, its plan asks only for positions that are there, and
every set of rows that a query works on has one value for each label. -/
theorem Session.Reached.execute_internalFree {options : Options} {s : Session}
    (hs : s.Reached options) (st : Statement) :
    (∀ cause, (s.execute st).1 ≠ .error (.internal cause)) ∧
      (∀ t, Grammar.parse st.sql = .ok t → ∀ lexeme ∈ Arguments.placeholders t,
        lexeme.toList.head? = some '$' ∧ 1 < lexeme.length) ∧
      ∀ plan, Plan.ofText st.sql st.arguments s.database.options.strictParams = .ok plan →
        (∀ i n, plan.Asks s.database.catalog i n → i < n) ∧
          ∀ q, plan = .query q → ∀ part ∈ q.parts, ∀ t set t',
            Gives (part.run (s.database.catalog.table plan.locks)) t set t' → set.Rectangular := by
  have hc : s.database.catalog.WellTyped := .of_stored hs.stored
  refine ⟨fun cause => s.database.execute_neverInternal hc st.sql st.arguments s.clock cause,
    ?_, ?_⟩
  · intro t ht lexeme hlexeme
    obtain ⟨c, tail, rfl, -⟩ := Arguments.carries_of_mem_placeholders ht lexeme hlexeme
    rw [String.toList_ofList, String.length_ofList, List.length_cons, List.length_cons]
    exact ⟨rfl, by omega⟩
  · intro plan hplan
    refine ⟨fun i n h => Plan.asks_lt hc h, ?_⟩
    rintro q rfl part - t set t' h
    exact Query.run_rectangular hc.rectangular h

namespace Session

/-- A session with two rows, one of which has a `NULL`. -/
def oneNull : Session := ((new .standard ⟨0, []⟩).run [⟨"CREATE TABLE t (a INT, b TEXT)", []⟩,
  ⟨"INSERT INTO t VALUES (1, 'x'), (2, NULL)", []⟩]).2

/-- An `UPDATE` of the other. -/
def fillOne : Statement := ⟨"UPDATE t SET b = $2 WHERE a < $1", [.integer 2, .text "y"]⟩

/-- It is carried out, so it has a plan, which asks only for columns that are there. -/
theorem execute_internalFree_fillOne : oneNull.Reached .standard ∧
    (oneNull.execute fillOne).1 = .ok (.updated 1) ∧
    ∃ plan, oneNull.plan fillOne = .ok plan ∧
      ∀ i n, plan.Asks oneNull.database.catalog i n → i < n := by
  have hreached : oneNull.Reached .standard := reached_run _ _ _
  have hupdated : (oneNull.execute fillOne).1 = .ok (.updated 1) := by decide +kernel
  refine ⟨hreached, hupdated, ?_⟩
  rcases execute_cases oneNull fillOne with ⟨-, e, he⟩ | ⟨plan, _, hplan, -⟩
  · rw [hupdated] at he
    cases he
  · exact ⟨plan, hplan, ((hreached.execute_internalFree fillOne).2.2 plan hplan).1⟩

end Session

end MiniSql
