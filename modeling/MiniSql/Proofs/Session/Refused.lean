/-
# What a plan is refused with

Whatever the plan, carrying it out is refused for the rows that it meets, except that a table which is
to be dropped may be missing (`Plan.carryOut_within`). What stands in the place of an answer, where
the plan is carried out, is that the column to return is not there (`Plan.answer_within`). So a
statement is refused when it is planned, for a missing table, or for its rows
(`Session.error_cases`).
-/

import MiniSql.Proofs.Session.Atomicity
import MiniSql.Proofs.Store.Refused

namespace MiniSql

open Error Timed

/-- A creation is refused as a query may be. -/
theorem Catalog.create_within (c : Catalog) (s : Schema) (ifNotExists : Bool) (start : Int64) :
    Except.Within OfQuery (c.create s ifNotExists start) := by
  refine s.validate_within.bind fun _ _ => ?_
  split
  · split
    · exact .ok _
    · exact .error (.schema nofun)
  · exact .ok _

namespace Plan

variable {A : Error → Prop} {start : Int64} {c c' : Catalog} {p : Plan} {t t' : Time.Clock}

/-- **A plan whose locks are granted is refused for its rows**, or because the table that it drops
is missing. -/
theorem carryOut_within (hgrant : c.grant p.locks = .ok ()) (hrows : ∀ e, OfRows e → A e)
    (hdrop : ∀ table ifExists, p = .dropTable table ifExists → A (.schema (.noTable table))) :
    Within A (p.carryOut start c) := by
  have htarget {table : String} (hlocks : p.locks = LockRequest.write .empty table) :
      Except.Within A (c.tableToWrite p.locks table) := by
    rw [hlocks] at hgrant ⊢
    obtain ⟨r, -, hr⟩ := Catalog.tableToWrite_of_grant hgrant
    rw [hr]
    exact .ok r
  cases p with
  | createTable s ifNotExists =>
    exact ((Within.ofExcept (c.create_within s ifNotExists start)).mono fun e h =>
      hrows e (.query h)).bind fun _ => .pure _
  | dropTable table ifExists =>
    refine Within.bind (.ofExcept ?_) fun _ => .pure _
    unfold Catalog.drop
    split
    · exact .ok _
    · split
      · exact .ok _
      · exact .error (hdrop table ifExists rfl)
  | truncate table => exact (Within.ofExcept (htarget rfl)).bind fun _ => .pure _
  | insert table columns rows returning =>
    exact (Within.ofExcept (htarget rfl)).bind fun r =>
      ((Mutation.insert_within r columns rows).mono hrows).bind fun _ => .pure _
  | update table predicate assignments =>
    exact (Within.ofExcept (htarget rfl)).bind fun r =>
      ((Mutation.update_within r predicate assignments).mono hrows).bind fun _ => .pure _
  | delete table predicate =>
    exact (Within.ofExcept (htarget rfl)).bind fun r =>
      ((Mutation.delete_within r predicate).mono fun e h => hrows e (.query h)).bind
        fun _ => .pure _
  | query q =>
    exact ((Query.run_within (Query.readable hgrant)).mono fun e h => hrows e (.query h)).bind
      fun _ => .pure _

/-- **What stands in the place of an answer** is that the column to return is not there. -/
theorem answer_within {answer : Except Error Answer}
    (h : Gives (p.run start c) t (c', answer) t') : Except.Within OfQuery answer := by
  cases p
  case insert table columns rows returning =>
    obtain ⟨-, r, r', stored, -, -, -, rfl⟩ := gives_run_insert.1 h
    cases returning with
    | none => exact .ok _
    | some column => exact (column.resolve_within r.schema.labels).bind fun _ _ => .ok _
  all_goals
    cases answer with
    | ok answer => exact .ok answer
    | error e =>
      simp only [run, carryOut, gives_bind, gives_pure, Prod.mk.injEq, reduceCtorEq, and_false,
        false_and, exists_false] at h

/-- **A plan is refused for a missing table or for its rows.** -/
theorem run_within (p : Plan) :
    Within (fun e => (∃ name, e = .schema (.noTable name)) ∨ OfRows e) (p.run start c) := by
  intro t e t' h
  rcases refuses_bind.1 h with h | ⟨_, mid, hgrant, h⟩
  · obtain ⟨name, -, rfl⟩ := Catalog.grant_eq_error_iff.1 (refuses_ofExcept.1 h).1
    exact .inl ⟨name, rfl⟩
  · have hwithin : Within (fun e => (∃ name, e = .schema (.noTable name)) ∨ OfRows e)
        (p.carryOut start c) :=
      carryOut_within (gives_ofExcept.1 hgrant).1 (fun _ he => .inr he)
        fun table _ _ => .inl ⟨table, rfl⟩
    exact hwithin mid e t' h

end Plan

/-- **A statement is refused when it is planned, for a missing table, or for its rows.** -/
theorem Session.error_cases {s : Session} {st : Statement} {e : Error}
    (h : (s.execute st).1 = .error e) :
    s.plan st = .error e ∨
      ∃ p, s.plan st = .ok p ∧ ((∃ name, e = .schema (.noTable name)) ∨ OfRows e) := by
  cases hplan : s.plan st with
  | error e' =>
    rw [execute_eq (Database.execute_of_fault hplan)] at h
    cases h
    exact .inl rfl
  | ok p =>
    refine .inr ⟨p, rfl, ?_⟩
    rcases gives_or_refuses (p.run s.database.options.autoincrementStart s.database.catalog)
      s.clock with ⟨⟨c, answer⟩, t, hgives⟩ | ⟨e', t, hrefused⟩
    · rw [execute_eq (Database.execute_of_gives hplan hgives)] at h
      exact .inr (.query (Plan.answer_within hgives e h))
    · rw [execute_eq (Database.execute_of_refuses hplan hrefused)] at h
      cases h
      exact p.run_within _ _ _ hrefused

end MiniSql
