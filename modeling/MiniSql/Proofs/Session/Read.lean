/-
# Queries in a session

A query is granted its locks and then runs (`Session.read`), and what it reads is what its statement
answers. The last steps of a query neither lock nor read the clock: they make of the rows of their
source the rows that are shown, or refuse them. So a statement is answered or refused for what its
last steps make of these rows (`Session.execute_of_read`), unless its source is refused already
(`Session.execute_of_unread`).
-/

import MiniSql.Proofs.Session.Step

namespace MiniSql

open Timed

/-- Two steps without time are one. -/
theorem Timed.ofExcept_bind {α β : Type} (x : Except Error α) (f : α → Except Error β) :
    ofExcept (x >>= f) = ofExcept x >>= fun a => ofExcept (f a) := by
  cases x with
  | error e => rfl
  | ok a =>
    show ofExcept (f a) = (pure a : Timed α) >>= fun a => ofExcept (f a)
    rw [pure_bind]

namespace Session

variable {s : Session} {st : Statement} {source q : Query} {set : Rowset} {clock : Time.Clock}
  {answer : Answer}

/-- The rows of a query, read in a session. -/
def read (s : Session) (q : Query) : Timed Rowset := do
  Timed.ofExcept (s.database.catalog.grant (Plan.query q).locks)
  q.run (s.database.catalog.table (Plan.query q).locks)

/-- A query answers the rows that are read. -/
theorem run_query (s : Session) (q : Query) :
    (Plan.query q).run s.database.options.autoincrementStart s.database.catalog =
      (fun set => (s.database.catalog, Except.ok (Answer.rows set))) <$> s.read q := by
  simp only [Plan.run, Plan.carryOut, read, map_eq_pure_bind, bind_assoc]

/-- What a query makes of the rows of its source is its answer, or why it is refused. -/
theorem execute_of_read {f : Rowset → Except Error Rowset} (hplan : s.plan st = .ok (.query q))
    (hread : s.read q = s.read source >>= fun set => Timed.ofExcept (f set))
    (hset : Gives (s.read source) s.clock set clock) :
    s.execute st = (Answer.rows <$> f set, ⟨s.database, clock⟩) := by
  cases hshown : f set with
  | ok shown =>
    refine execute_eq (Database.execute_of_gives hplan ?_)
    rw [run_query, hread, gives_map]
    exact ⟨shown, gives_bind.2 ⟨set, clock, hset, gives_ofExcept.2 ⟨hshown, rfl⟩⟩, rfl⟩
  | error e =>
    refine execute_eq (Database.execute_of_refuses hplan ?_)
    rw [run_query, hread, refuses_map]
    exact refuses_bind.2 (.inr ⟨set, clock, hset, refuses_ofExcept.2 ⟨hshown, rfl⟩⟩)

/-- A query is refused where the rows it is made of are not read. -/
theorem execute_of_unread {f : Rowset → Except Error Rowset} {e : Error}
    (hplan : s.plan st = .ok (.query q))
    (hread : s.read q = s.read source >>= fun set => Timed.ofExcept (f set))
    (hrefused : Refuses (s.read source) s.clock e clock) :
    s.execute st = (.error e, ⟨s.database, clock⟩) := by
  refine execute_eq (Database.execute_of_refuses hplan ?_)
  rw [run_query, hread, refuses_map]
  exact refuses_bind.2 (.inl hrefused)

/-- What is answered has a plan. -/
theorem plan_of_answer (h : (s.execute st).1 = .ok answer) : ∃ plan, s.plan st = .ok plan := by
  cases hplan : s.plan st with
  | ok plan => exact ⟨plan, rfl⟩
  | error e =>
    rw [execute_eq (Database.execute_of_fault hplan)] at h
    cases h

/-- What a query answers has been made of the rows of its source. -/
theorem read_of_answer {f : Rowset → Except Error Rowset} (hplan : s.plan st = .ok (.query q))
    (hread : s.read q = s.read source >>= fun set => Timed.ofExcept (f set))
    (h : (s.execute st).1 = .ok answer) :
    ∃ set clock shown, Gives (s.read source) s.clock set clock ∧ f set = .ok shown ∧
      answer = .rows shown := by
  rcases gives_or_refuses (s.read source) s.clock with ⟨set, clock, hset⟩ | ⟨e, clock, hrefused⟩
  · rw [execute_of_read hplan hread hset] at h
    cases hf : f set with
    | error e =>
      rw [hf] at h
      cases h
    | ok shown =>
      rw [hf] at h
      cases h
      exact ⟨set, clock, shown, hset, hf, rfl⟩
  · rw [execute_of_unread hplan hread hrefused] at h
    cases h

end Session
end MiniSql
