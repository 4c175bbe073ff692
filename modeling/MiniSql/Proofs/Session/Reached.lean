/-
# The states of a session

A session goes on by statements, and by time that passes between them (`Session.Leads`). A state is
reached if it comes from a session without tables (`Session.Reached`), as the one behind any run of
statements does (`Session.reached_run`).

So there are three kinds of steps, of which only the statements touch a table. What new tables have,
and every change of a table keeps, is so of every table in every state that is reached
(`Session.Reached.tables`). Each invariant of the store is one use of that theorem.
-/

import MiniSql.Proofs.Session.Step

namespace MiniSql
namespace Session

/-- The second state comes from the first by statements, refused ones among them, and by waiting. -/
inductive Leads (s : Session) : Session → Prop
  | refl : Leads s s
  | execute {mid : Session} (h : Leads s mid) (st : Statement) : Leads s (mid.execute st).2
  | wait {mid : Session} {clock : Time.Clock} (h : Leads s mid)
      (hle : mid.clock.next ≤ clock.next) :
      Leads s ⟨mid.database, clock⟩

/-- The state comes from a session without tables. -/
def Reached (options : Options) (s : Session) : Prop := ∃ clock, (new options clock).Leads s

variable {options : Options} {s mid : Session}

/-- A run of statements leads on. -/
theorem Leads.run (h : s.Leads mid) (statements : List Statement) :
    s.Leads (mid.run statements).2 := by
  induction statements generalizing mid with
  | nil => exact h
  | cons st statements ih => exact ih (h.execute st)

/-- **Every run of statements that starts without tables** reaches its last state. -/
theorem reached_run (options : Options) (clock : Time.Clock) (statements : List Statement) :
    ((new options clock).run statements).2.Reached options :=
  ⟨clock, Leads.refl.run statements⟩

/-- The options stay those of the start. -/
theorem Reached.options_eq (hs : s.Reached options) : s.database.options = options := by
  obtain ⟨clock, h⟩ := hs
  induction h with
  | refl => rfl
  | execute _ st ih => rw [options_execute, ih]
  | wait _ _ ih => exact ih

/-- **What new tables have and every change of a table keeps** is so of every table, also where time
has passed between the statements. -/
theorem Reached.tables {P : String → Relation → Prop} (h : s.Reached options)
    (hnew : ∀ schema : Schema, schema.WellFormed → ∀ start, P schema.name (.new schema start))
    (hstep : ∀ name r r', P name r → r.Step r' → P name r') :
    ∀ e ∈ s.database.catalog.tables.entries, P e.1 e.2 := by
  obtain ⟨clock, h⟩ := h
  induction h with
  | refl => exact fun _ he => nomatch he
  | @execute mid _ st ih =>
    have hone := (Database.execute_step (d := mid.database)
      (rfl : (mid.database.execute st.sql st.arguments).run mid.clock = _)).2
    exact hone.tables (fun schema hs => hnew schema hs _) hstep ih
  | wait _ _ ih => exact ih

end Session
end MiniSql
