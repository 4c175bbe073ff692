/-
# Queries that do not read the clock

A query reads the clock only where one of its predicates asks for the current time: the predicate of
a filter, or the condition of a join. One that has none gives the same rows at all times
(`Query.run_timeless`), and a statement that it is the plan of is answered alike at all times
(`Session.execute_timeless`).
-/

import MiniSql.Proofs.Query.Matching
import MiniSql.Proofs.Session.Read

namespace MiniSql

open Timed

/-! ## Passes over rows -/

namespace Rowset

variable {test : Row → Timed Bool}

/-- Testing rows is timeless if the test is. -/
theorem keep_timeless (h : ∀ row, Timeless (test row)) (rows : List Row) :
    Timeless (keep test rows) := by
  induction rows with
  | nil => exact .pure _
  | cons row rows ih => exact (h row).bind fun _ => ih.bind fun _ => .pure _

/-- Pairing rows is timeless if the test is. -/
theorem pairAll_timeless (h : ∀ row, Timeless (test row)) (outer : Bool) (padding : Row)
    (right lefts : List Row) : Timeless (pairAll test outer padding right lefts) := by
  induction lefts with
  | nil => exact .pure _
  | cons left lefts ih =>
    exact (keep_timeless h (right.map (left ++ ·))).bind fun _ => ih.bind fun _ => .pure _

/-- Admitting a pair is timeless by a condition that reads no clock. -/
theorem admits_timeless {p : Option Expression} (h : p.any Expression.readsClock = false)
    (labels : List String) (row : Row) : Timeless (admits p labels row) := by
  cases p with
  | none => exact .pure _
  | some e => exact (Expression.evaluate_timeless h).bind fun _ => .pure _

end Rowset

/-! ## Queries -/

namespace Query

/-- One of the predicates of the query asks for the current time. -/
def readsClock : Query → Bool
  | scan _ => false
  | join left right p _ => (left.readsClock || right.readsClock) || p.any Expression.readsClock
  | filter source p => source.readsClock || p.readsClock
  | order source _ | offset source _ | limit source _ | projection source _ | aggregate source _ =>
    source.readsClock

/-- **A query without such a predicate** gives the same rows at all times, or is refused. -/
theorem run_timeless {q : Query} (h : q.readsClock = false)
    (table : String → Except Error Relation) : Timeless (q.run table) := by
  induction q with
  | scan name => exact (Timeless.ofExcept _).bind fun _ => .pure _
  | join left right p outer ihl ihr =>
    obtain ⟨hsides, hp⟩ := Bool.or_eq_false_iff.1 h
    obtain ⟨hl, hr⟩ := Bool.or_eq_false_iff.1 hsides
    refine (ihl hl).bind fun l => (ihr hr).bind fun r => ?_
    exact (Rowset.pairAll_timeless (Rowset.admits_timeless hp _) _ _ _ _).bind fun _ => .pure _
  | filter source p ih =>
    obtain ⟨hsource, hp⟩ := Bool.or_eq_false_iff.1 h
    refine (ih hsource).bind fun set => ?_
    refine (Rowset.keep_timeless (fun row => ?_) set.rows).bind fun _ => .pure _
    exact (Expression.evaluate_timeless hp).bind fun _ => .pure _
  | order source keys ih => exact (ih h).bind fun _ => .ofExcept _
  | offset source n ih => exact (ih h).bind fun _ => .pure _
  | limit source n ih => exact (ih h).bind fun _ => .pure _
  | projection source items ih => exact (ih h).bind fun _ => .ofExcept _
  | aggregate source calls ih => exact (ih h).bind fun _ => .ofExcept _

end Query

/-- A query that does not ask for the time is answered alike at all times. -/
theorem Session.execute_timeless {s : Session} {st : Statement} {q : Query}
    (hplan : s.plan st = .ok (.query q)) (h : q.readsClock = false)
    (clock : Time.Clock) : (⟨s.database, clock⟩ : Session).execute st =
      ((s.execute st).1, ⟨s.database, clock⟩) := by
  obtain ⟨x, hx⟩ : Timeless (s.read q) :=
    (Timeless.ofExcept _).bind fun _ => Query.run_timeless h _
  have hread (s : Session) : s.read q = s.read q >>= fun set => Timed.ofExcept (.ok set) :=
    (bind_pure _).symm
  cases x with
  | ok set =>
    have hset (t : Time.Clock) : Gives (s.read q) t set t := hx ▸ gives_ofExcept.2 ⟨rfl, rfl⟩
    rw [execute_of_read hplan (hread s) (hset s.clock)]
    exact execute_of_read (s := ⟨s.database, clock⟩) hplan (hread _) (hset clock)
  | error e =>
    have hrefused (t : Time.Clock) : Refuses (s.read q) t e t := hx ▸ refuses_ofExcept.2 ⟨rfl, rfl⟩
    rw [execute_of_unread hplan (hread s) (hrefused s.clock)]
    exact execute_of_unread (s := ⟨s.database, clock⟩) hplan (hread _) (hrefused clock)

end MiniSql
