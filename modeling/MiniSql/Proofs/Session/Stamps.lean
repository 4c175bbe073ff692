/-
# The stamps of a session

The clock of a session never goes back, so what it has handed out at one state it has handed out at
every later one (`Session.Leads.handedOut`). An `UPDATE` that is carried out stamps the rows that it
finds with later instants than all of these (`Session.Reached.execute_stamps`): whatever has been
stored as the current time of an earlier statement is earlier than its stamps.
-/

import MiniSql.Proofs.Session.Invariants
import MiniSql.Proofs.Store.Stamps

namespace MiniSql

open Timed

namespace Session

variable {options : Options} {s s' : Session} {st : Statement}

/-- No statement takes the clock back. -/
theorem clock_execute (s : Session) (st : Statement) :
    s.clock.next ≤ (s.execute st).2.clock.next :=
  (s.database.execute_steady st.sql st.arguments s.clock).1.le

/-- The clock does not go back. -/
theorem Leads.forward (h : s.Leads s') : s.clock.next ≤ s'.clock.next := by
  induction h with
  | refl => exact Int.le_refl _
  | execute _ st ih => exact Int.le_trans ih (clock_execute _ st)
  | wait _ hle ih => exact Int.le_trans ih hle

/-- What the clock has handed out stays so. -/
theorem Leads.handedOut {i : Time.Instant} (h : s.Leads s') (hi : s.clock.HandedOut i) :
    s'.clock.HandedOut i := hi.later h.forward

/-- What answers with a number of changed rows is an `UPDATE` of a table. -/
theorem execute_updated {n : Nat} (h : (s.execute st).1 = .ok (.updated n)) :
    ∃ name p assignments r r', s.plan st = .ok (.update name p assignments) ∧
      s.table? name = some r ∧ (s.execute st).2.table? name = some r' ∧
      Gives (Mutation.update r p assignments) s.clock (r', n) (s.execute st).2.clock := by
  rcases execute_cases s st with ⟨-, e, he⟩ | ⟨plan, c, hplan, -, hgives, hafter⟩
  · rw [h] at he
    cases he
  rw [h] at hgives
  cases plan <;> simp only [Plan.carryOut, gives_bind, gives_ofExcept, gives_pure, Prod.exists,
    Prod.mk.injEq, Except.ok.injEq, reduceCtorEq, and_false, false_and, exists_false] at hgives
  case insert table columns rows returning =>
    obtain ⟨r, _, -, _, stored, _, -, ⟨-, hanswer⟩, -⟩ := hgives
    cases returning with
    | none => cases hanswer
    | some column =>
      obtain ⟨_, -, hanswer⟩ := Except.bind_eq_ok.1 hanswer
      cases hanswer
  case update table p assignments =>
    obtain ⟨r, _, ⟨hr, rfl⟩, r', n, _, hupdate, ⟨rfl, hn⟩, rfl⟩ := hgives
    cases hn
    refine ⟨table, p, assignments, r, r', hplan, Catalog.get?_of_tableToWrite hr, ?_, hupdate⟩
    rw [table?, hafter]
    show (s.database.catalog.put table r').tables.get? table = _
    rw [Catalog.put, SortedMap.get?_insert, if_pos rfl]

/-- **The stamps of an `UPDATE`** are later than all that the clock has handed out before it, and
ascend in the order of the rows. Rows that it does not find, and columns that are neither assigned
nor stamped, are as before. -/
theorem Reached.execute_stamps (hs : s.Reached options) {n : Nat}
    (h : (s.execute st).1 = .ok (.updated n)) :
    ∃ name p assignments r r' assigned found mid,
      s.plan st = .ok (.update name p assignments) ∧
      s.table? name = some r ∧ (s.execute st).2.table? name = some r' ∧
      Mutation.targets r.schema [] assignments = .ok assigned ∧
      Mutation.Hits r.schema p assigned s.clock r.scan found mid ∧ n = found.length ∧
      r.Updated r' (assignments.map (·.1)) (found.map (·.1)) s.clock (s.execute st).2.clock := by
  obtain ⟨name, p, assignments, r, r', hplan, hr, hr', hupdate⟩ := execute_updated h
  have hwell : r.WellTyped := (hs.stored _ (SortedMap.mem_entries_of_get? hr)).wellTyped
  obtain ⟨assigned, found, mid, htargets, hhits, hn, hupdated⟩ :=
    Relation.updated_of_update hwell hupdate
  exact ⟨name, p, assignments, r, r', assigned, found, mid, hplan, hr, hr', htargets, hhits, hn,
    hupdated⟩

/-- A session with three rows, which tell when they were made and when they were changed. -/
def threeStamped : Session :=
  ((new .standard ⟨0, []⟩).run [⟨"CREATE TABLE t (a INT, made TIMESTAMP DEFAULT CURRENT_TIMESTAMP,
      changed TIMESTAMP ON UPDATE CURRENT_TIMESTAMP)", []⟩,
    ⟨"INSERT INTO t (a) VALUES (1), (2), (3)", []⟩]).2

/-- An `UPDATE` of two of them. Its predicate reads the clock too, and it assigns to a column that
it stamps. -/
def changeTwo : Statement :=
  ⟨"UPDATE t SET a = 9, changed = '2999-01-01T00:00:00Z' WHERE a > 1 AND made < NOW()", []⟩

/-- It stamps them with the sixth and the seventh reading, not with what it assigns. -/
theorem execute_stamps_changeTwo :
    (threeStamped.execute changeTwo).1 = .ok (.updated 2) ∧
      (((threeStamped.execute changeTwo).2.table? "t").map fun r =>
        r.scan.map fun e => Relation.valueAt 2 e.2) =
          some [.null, .timestamp ⟨0, 5000⟩, .timestamp ⟨0, 6000⟩] ∧
      ∃ name r r' assigned found, threeStamped.table? name = some r ∧
        (threeStamped.execute changeTwo).2.table? name = some r' ∧ found.length = 2 ∧
        r.Updated r' assigned found threeStamped.clock
          (threeStamped.execute changeTwo).2.clock := by
  have hreached : threeStamped.Reached .standard := reached_run _ _ _
  have hrun : (threeStamped.execute changeTwo).1 = .ok (.updated 2) ∧
      (((threeStamped.execute changeTwo).2.table? "t").map fun r =>
        r.scan.map fun e => Relation.valueAt 2 e.2) =
          some [.null, .timestamp ⟨0, 5000⟩, .timestamp ⟨0, 6000⟩] := by decide +kernel
  obtain ⟨name, p, assignments, r, r', -, found, -, -, hr, hr', -, -, hn, h⟩ :=
    hreached.execute_stamps hrun.1
  exact ⟨hrun.1, hrun.2, name, r, r', assignments.map (·.1), found.map (·.1), hr, hr',
    by rw [List.length_map, hn], h⟩

end Session
end MiniSql
