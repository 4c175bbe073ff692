/-
# What a statement does to a database

A statement creates a table, drops one, changes one, or leaves the catalog as it is, whether it is
refused or not (`Database.execute_step`). So a statement keeps what new tables have and what every
change of a table keeps (`Catalog.Step.tables`).
-/

import MiniSql.Proofs.Plan.Shape
import MiniSql.Proofs.Store.Locks
import MiniSql.Proofs.Store.Mutation
import MiniSql.Session

namespace MiniSql

open Timed

variable {t t' : Time.Clock} {start : Int64}

/-- One change of a catalog by a statement, where new tables count from `start`. -/
inductive Catalog.Step (start : Int64) (c : Catalog) : Catalog → Prop
  | unchanged : Step start c c
  | create {s : Schema} (hs : s.WellFormed) (hnew : c.has s.name = false) :
      Step start c (c.put s.name (.new s start))
  | drop (name : String) : Step start c ⟨c.tables.erase name⟩
  | change {name : String} {r r' : Relation} (h : c.tables.get? name = some r) (h' : r.Step r') :
      Step start c (c.put name r')

/-! ## One statement -/

namespace Catalog

variable {c c' : Catalog}

/-- A table is found under the name that it is put under. -/
theorem get?_put_self (c : Catalog) (name : String) (r : Relation) :
    (c.put name r).tables.get? name = some r := by
  rw [put, SortedMap.get?_insert, if_pos rfl]

/-- A table is created new, or not at all. -/
theorem create_cases {s : Schema} {ifNotExists created : Bool}
    (h : c.create s ifNotExists start = .ok (c', created)) :
    c' = c ∨ s.validate = .ok () ∧ c.has s.name = false ∧ c' = c.put s.name (.new s start) := by
  obtain ⟨_, hvalid, h⟩ := Except.bind_eq_ok.1 h
  split at h
  · split at h
    · cases h
      exact .inl rfl
    · cases h
  · rename_i hnew
    cases h
    exact .inr ⟨hvalid, by simpa using hnew, rfl⟩

/-- A drop leaves the catalog or erases the table. -/
theorem drop_cases {name : String} {ifExists dropped : Bool}
    (h : c.drop name ifExists = .ok (c', dropped)) : c' = c ∨ c' = ⟨c.tables.erase name⟩ := by
  unfold drop at h
  split at h
  · cases h
    exact .inr rfl
  · split at h
    · cases h
      exact .inl rfl
    · cases h

/-- A table that is written under a lock is the one in the catalog. -/
theorem get?_of_tableToWrite {granted : LockRequest} {name : String} {r : Relation}
    (h : c.tableToWrite granted name = .ok r) : c.tables.get? name = some r := by
  unfold tableToWrite at h
  split at h
  · cases h
  · exact get?_of_table h

end Catalog

namespace Plan

variable {c c' : Catalog} {p : Plan} {answer : Except Error Answer}

/-- **A plan that is carried out** creates a table, drops one, changes one, or leaves the catalog as
it is. -/
theorem carryOut_cases (h : Gives (p.carryOut start c) t (c', answer) t') :
    c' = c ∨
      (∃ s ifNotExists, p = createTable s ifNotExists ∧ s.validate = .ok () ∧
        c.has s.name = false ∧ c' = c.put s.name (.new s start)) ∨
      (∃ table, c' = ⟨c.tables.erase table⟩) ∨
      ∃ table r r', c.tables.get? table = some r ∧ Mutation.Step r r' ∧ c' = c.put table r' := by
  cases p <;> simp only [carryOut, gives_bind, gives_ofExcept, gives_pure, Prod.exists,
    Prod.mk.injEq] at h
  case createTable s ifNotExists =>
    obtain ⟨_, created, _, ⟨hcreate, -⟩, ⟨rfl, -⟩, -⟩ := h
    rcases Catalog.create_cases hcreate with rfl | hnew
    · exact .inl rfl
    · exact .inr (.inl ⟨s, ifNotExists, rfl, hnew⟩)
  case dropTable table ifExists =>
    obtain ⟨_, dropped, _, ⟨hdrop, -⟩, ⟨rfl, -⟩, -⟩ := h
    rcases Catalog.drop_cases hdrop with rfl | rfl
    · exact .inl rfl
    · exact .inr (.inr (.inl ⟨table, rfl⟩))
  case truncate table =>
    obtain ⟨r, _, ⟨hr, -⟩, ⟨rfl, -⟩, -⟩ := h
    exact .inr (.inr (.inr ⟨table, r, _, Catalog.get?_of_tableToWrite hr, .truncate, rfl⟩))
  case insert table columns rows returning =>
    obtain ⟨r, _, ⟨hr, -⟩, r', stored, _, hinsert, ⟨rfl, -⟩, -⟩ := h
    exact .inr (.inr (.inr ⟨table, r, r', Catalog.get?_of_tableToWrite hr, .insert hinsert, rfl⟩))
  case update table predicate assignments =>
    obtain ⟨r, _, ⟨hr, -⟩, r', n, _, hupdate, ⟨rfl, -⟩, -⟩ := h
    exact .inr (.inr (.inr ⟨table, r, r', Catalog.get?_of_tableToWrite hr, .update hupdate, rfl⟩))
  case delete table predicate =>
    obtain ⟨r, _, ⟨hr, -⟩, r', n, _, hdelete, ⟨rfl, -⟩, -⟩ := h
    exact .inr (.inr (.inr ⟨table, r, r', Catalog.get?_of_tableToWrite hr, .delete hdelete, rfl⟩))
  case query q =>
    obtain ⟨_, _, -, ⟨rfl, -⟩, -⟩ := h
    exact .inl rfl

/-- **A plan that is carried out** takes one step. -/
theorem carryOut_step (hp : p.Proper) (h : Gives (p.carryOut start c) t (c', answer) t') :
    c.Step start c' := by
  rcases carryOut_cases h with rfl | ⟨s, ifNotExists, rfl, hvalid, hnew, rfl⟩ | ⟨table, rfl⟩ |
    ⟨table, r, r', hr, hstep, rfl⟩
  · exact .unchanged
  · exact .create (Schema.wellFormed_of_validate hvalid hp) hnew
  · exact .drop table
  · exact .change hr hstep.relation

end Plan

namespace Database

variable {d d' : Database} {sql : String} {arguments : List Value} {answer : Except Error Answer}

/-- **A statement is refused, or it has a plan that runs.** Where it is refused the database stays
as it is. -/
theorem execute_cases (h : (d.execute sql arguments).run t = ((answer, d'), t')) :
    (d' = d ∧ ∃ e, answer = .error e) ∨
      ∃ plan catalog, Plan.ofText sql arguments d.options.strictParams = .ok plan ∧
        Gives (plan.run d.options.autoincrementStart d.catalog) t (catalog, answer) t' ∧
        d' = { d with catalog := catalog } := by
  unfold execute at h
  split at h
  · cases h
    exact .inl ⟨rfl, _, rfl⟩
  · rename_i plan hplan
    rw [StateT.run_bind] at h
    rcases hrun : (plan.run d.options.autoincrementStart d.catalog).run.run t with ⟨e | ⟨c, a⟩, mid⟩
      <;> rw [hrun] at h <;> cases h
    · exact .inl ⟨rfl, _, rfl⟩
    · exact .inr ⟨plan, c, hplan, hrun, rfl⟩

/-- A statement whose plan runs leaves what the plan leaves. -/
theorem execute_of_gives {plan : Plan} {catalog : Catalog}
    (hplan : Plan.ofText sql arguments d.options.strictParams = .ok plan)
    (h : Gives (plan.run d.options.autoincrementStart d.catalog) t (catalog, answer) t') :
    (d.execute sql arguments).run t = ((answer, { d with catalog := catalog }), t') := by
  unfold execute
  rw [hplan]
  dsimp only
  rw [StateT.run_bind, show (plan.run _ d.catalog).run.run t = _ from h]
  rfl

/-- A statement without a plan is refused. -/
theorem execute_of_fault {e : Error}
    (hplan : Plan.ofText sql arguments d.options.strictParams = .error e) :
    (d.execute sql arguments).run t = ((.error e, d), t) := by
  unfold execute
  rw [hplan]
  rfl

/-- A statement whose plan is refused is. -/
theorem execute_of_refuses {plan : Plan} {e : Error}
    (hplan : Plan.ofText sql arguments d.options.strictParams = .ok plan)
    (h : Refuses (plan.run d.options.autoincrementStart d.catalog) t e t') :
    (d.execute sql arguments).run t = ((.error e, d), t') := by
  unfold execute
  rw [hplan]
  dsimp only
  rw [StateT.run_bind, show (plan.run _ d.catalog).run.run t = _ from h]
  rfl

/-- **Every statement is one step of the catalog.** The options stay. -/
theorem execute_step (h : (d.execute sql arguments).run t = ((answer, d'), t')) :
    d'.options = d.options ∧ d.catalog.Step d.options.autoincrementStart d'.catalog := by
  rcases execute_cases h with ⟨rfl, -⟩ | ⟨plan, catalog, hplan, hrun, rfl⟩
  · exact ⟨rfl, .unchanged⟩
  · obtain ⟨_, _, -, hrun⟩ := gives_bind.1 hrun
    exact ⟨rfl, Plan.carryOut_step (Plan.proper_of_ofText hplan) hrun⟩

end Database

/-! ## What a statement keeps -/

/-- What new tables have and every change of a table keeps is kept by a step of the catalog. -/
theorem Catalog.Step.tables {c c' : Catalog} {P : String → Relation → Prop}
    (hnew : ∀ s : Schema, s.WellFormed → P s.name (.new s start))
    (hstep : ∀ name r r', P name r → r.Step r' → P name r')
    (hc : ∀ e ∈ c.tables.entries, P e.1 e.2) (h : c.Step start c') :
    ∀ e ∈ c'.tables.entries, P e.1 e.2 := by
  intro e he
  cases h with
  | unchanged => exact hc e he
  | create hs _ =>
    rcases SortedMap.mem_entries_insert.1 he with rfl | ⟨he, -⟩
    · exact hnew _ hs
    · exact hc e he
  | drop name => exact hc e (SortedMap.mem_entries_erase.1 he).1
  | @change name r r' hr hr' =>
    rcases SortedMap.mem_entries_insert.1 he with rfl | ⟨he, -⟩
    · exact hstep name r r' (hc (name, r) (SortedMap.mem_entries_of_get? hr)) hr'
    · exact hc e he

namespace Session

/-- The table that stands under a name. -/
def table? (s : Session) (name : String) : Option Relation := s.database.catalog.tables.get? name

/-- The plan of a statement in the session. -/
def plan (s : Session) (st : Statement) : Except Error Plan :=
  Plan.ofText st.sql st.arguments s.database.options.strictParams

/-- A session executes as its database does. -/
theorem execute_eq {s : Session} {st : Statement} {answer : Except Error Answer} {d : Database}
    {t : Time.Clock}
    (h : (s.database.execute st.sql st.arguments).run s.clock = ((answer, d), t)) :
    s.execute st = (answer, ⟨d, t⟩) := by
  unfold execute
  rw [h]

/-- **A statement is refused, or it has a plan that is carried out.** Where it is refused the
database stays as it is. -/
theorem execute_cases (s : Session) (st : Statement) :
    ((s.execute st).2.database = s.database ∧ ∃ e, (s.execute st).1 = .error e) ∨
      ∃ p c, s.plan st = .ok p ∧ s.database.catalog.grant p.locks = .ok () ∧
        Gives (p.carryOut s.database.options.autoincrementStart s.database.catalog) s.clock
          (c, (s.execute st).1) (s.execute st).2.clock ∧
        (s.execute st).2.database = { s.database with catalog := c } := by
  rcases hrun : (s.database.execute st.sql st.arguments).run s.clock with ⟨⟨answer, d⟩, t⟩
  rw [execute_eq hrun]
  rcases Database.execute_cases hrun with hrefused | ⟨p, c, hp, hgives, rfl⟩
  · exact .inl hrefused
  · obtain ⟨_, _, hlocks, hgives⟩ := gives_bind.1 hgives
    obtain ⟨hgrant, rfl⟩ := gives_ofExcept.1 hlocks
    exact .inr ⟨p, c, hp, hgrant, hgives, rfl⟩

/-- A statement leaves the options. -/
theorem options_execute (s : Session) (st : Statement) :
    (s.execute st).2.database.options = s.database.options :=
  (Database.execute_step (d := s.database)
    (rfl : (s.database.execute st.sql st.arguments).run s.clock = _)).1

/-- Statements in turn leave the options. -/
theorem options_run (s : Session) (statements : List Statement) :
    (s.run statements).2.database.options = s.database.options := by
  induction statements generalizing s with
  | nil => rfl
  | cons st statements ih => exact (ih (s.execute st).2).trans (s.options_execute st)

end Session

end MiniSql
