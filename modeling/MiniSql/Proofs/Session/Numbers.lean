/-
# The numbers of a table over its life

A table lives from the statement that creates it for as long as statements leave it there. What they
put into its autoincrement columns meanwhile is consecutive, from the first number of the counter on
(`Session.Lives.counted`): deleted rows, emptied tables and refused statements do not give a number
back. So every number is new (`Session.Lives.numbers_ascend`).
-/

import MiniSql.Proofs.Session.Step
import MiniSql.Proofs.Store.Numbers

namespace MiniSql

open Timed

/-! ## One table under one statement -/

namespace Database

variable {d d' : Database} {sql name : String} {arguments : List Value}
  {answer : Except Error Answer} {r r' : Relation} {t t' : Time.Clock}

/-- **A table that is there before and after a statement** is the same, or the statement has changed
it. -/
theorem table_cases (h : (d.execute sql arguments).run t = ((answer, d'), t'))
    (hr : d.catalog.tables.get? name = some r) (hr' : d'.catalog.tables.get? name = some r') :
    r' = r ∨ Mutation.Step r r' := by
  have hsame (h : d'.catalog.tables.get? name = d.catalog.tables.get? name) : r' = r := by
    rw [hr, hr'] at h
    exact Option.some.inj h
  rcases execute_cases h with ⟨rfl, -⟩ | ⟨plan, c, -, hrun, rfl⟩
  · exact .inl (hsame rfl)
  obtain ⟨_, _, -, hrun⟩ := gives_bind.1 hrun
  rcases Plan.carryOut_cases hrun with rfl | ⟨s, ifNotExists, -, -, hnew, rfl⟩ | ⟨table, rfl⟩ |
    ⟨table, q, q', hq, hstep, rfl⟩
  · exact .inl (hsame rfl)
  · have hother : s.name ≠ name := by
      rintro rfl
      rw [Catalog.has, SortedMap.contains, hr] at hnew
      cases hnew
    exact .inl (hsame (by rw [Catalog.put, SortedMap.get?_insert, if_neg hother]))
  · have hother : table ≠ name := by
      rintro rfl
      rw [SortedMap.get?_erase, if_pos rfl] at hr'
      cases hr'
    exact .inl (hsame (by rw [SortedMap.get?_erase, if_neg hother]))
  · by_cases htable : table = name
    · subst htable
      rw [Catalog.put, SortedMap.get?_insert, if_pos rfl] at hr'
      rw [hr] at hq
      cases hr'
      cases hq
      exact .inr hstep
    · exact .inl (hsame (by rw [Catalog.put, SortedMap.get?_insert, if_neg htable]))

end Database

/-- A table that is there after a step and not before is new. -/
theorem Catalog.Step.new {c c' : Catalog} {name : String} {r : Relation} {start : Int64}
    (h : c.Step start c') (hnone : c.tables.get? name = none) (hr : c'.tables.get? name = some r) :
    ∃ s : Schema, s.WellFormed ∧ r = .new s start := by
  cases h with
  | unchanged =>
    rw [hnone] at hr
    cases hr
  | @create s hs hnew =>
    rw [Catalog.put, SortedMap.get?_insert] at hr
    split at hr
    · cases hr
      exact ⟨s, hs, rfl⟩
    · rw [hnone] at hr
      cases hr
  | drop table =>
    rw [SortedMap.get?_erase] at hr
    split at hr
    · cases hr
    · rw [hnone] at hr
      cases hr
  | @change table q q' hq hstep =>
    rw [Catalog.put, SortedMap.get?_insert] at hr
    split at hr
    · rename_i heq
      subst heq
      rw [hnone] at hq
      cases hq
    · rw [hnone] at hr
      cases hr

/-! ## The life of a table -/

namespace Session

/-- A statement has created the table of this name, and no statement since has dropped it. So far
its autoincrement columns have been given these numbers, also in rows that are gone. -/
inductive Lives (options : Options) (name : String) : Session → Relation → List Int64 → Prop
  | created {clock : Time.Clock} {statements : List Statement} {st : Statement} {s : Session}
      {r : Relation} (hs : s = ((new options clock).run statements).2)
      (hnone : s.table? name = none) (hr : (s.execute st).2.table? name = some r) :
      Lives options name (s.execute st).2 r []
  | kept {s : Session} {st : Statement} {r r' : Relation} {given : List Int64}
      (h : Lives options name s r given) (hr : (s.execute st).2.table? name = some r') :
      Lives options name (s.execute st).2 r' (given ++ r.added r')

variable {options : Options} {name : String} {s : Session} {st : Statement} {r r' : Relation}
  {given : List Int64}

/-- A table that lives is seen. -/
theorem Lives.table? (h : Lives options name s r given) : s.table? name = some r := by
  cases h with
  | created _ _ hr => exact hr
  | kept _ hr => exact hr

/-- A table that a statement leaves there goes on. -/
theorem execute_continues (hs : r.schema.WellFormed) (hcounted : r.Counted)
    (hr : s.table? name = some r) (hr' : (s.execute st).2.table? name = some r') :
    ∃ kept pushed, r.Continues r' kept pushed := by
  have hcases := Database.table_cases (d := s.database)
    (rfl : (s.database.execute st.sql st.arguments).run s.clock = _) hr hr'
  rcases hcases with rfl | hstep
  · exact ⟨_, [], Relation.continues_of_sublist rfl rfl rfl (.refl _)⟩
  · exact Relation.step_continues hs hcounted hstep

/-- **The numbers that a table has been given** are consecutive, from the first number of the
counter to the counter. -/
theorem Lives.counted (h : Lives options name s r given)
    (hgiven : ∀ n ∈ given, n < Int64.maxValue) :
    r.schema.WellFormed ∧ r.Counted ∧
      Consecutive options.autoincrementStart given r.nextNumber := by
  induction h with
  | @created clock statements st s r hs hnone hr =>
    have hstep := (Database.execute_step (d := s.database)
      (rfl : (s.database.execute st.sql st.arguments).run s.clock = _)).2
    obtain ⟨schema, hschema, rfl⟩ := hstep.new hnone hr
    refine ⟨hschema, Relation.counted_new, ?_⟩
    rw [hs, options_run]
    exact .nil _
  | @kept s st r r' given h hr ih =>
    obtain ⟨hold, hnew⟩ := List.forall_mem_append.1 hgiven
    obtain ⟨hs, hcounted, hnumbers⟩ := ih hold
    obtain ⟨_, _, hcontinues⟩ := execute_continues hs hcounted h.table? hr
    exact ⟨hcontinues.schema ▸ hs, hcontinues.counted hcounted hnew,
      hnumbers.append (hcontinues.consecutive hcounted)⟩

/-- **Numbers are given once**, as long as the largest one has not been given. In every state that a
table lives through, each autoincrement column ascends from row to row, below the counter. No
statement lowers the counter or changes the number of a row that it keeps, and the numbers that it
gives ascend, from the counter on and above all that the table was ever given. -/
theorem Lives.numbers_ascend (h : Lives options name s r given)
    (hgiven : ∀ n ∈ given, n < Int64.maxValue) :
    (∀ i c, r.schema.columns[i]? = some c → c.autoincrement = true → r.Ascends i) ∧
      ∀ st r', (s.execute st).2.table? name = some r' →
        (∀ n ∈ r.added r', n < Int64.maxValue) →
          r.nextNumber ≤ r'.nextNumber ∧ r.KeepsNumbers r' ∧ (r.added r').Pairwise (· < ·) ∧
            ∀ n ∈ r.added r', r.nextNumber ≤ n ∧ n < r'.nextNumber ∧ ∀ m ∈ given, m < n := by
  obtain ⟨hs, hcounted, hnumbers⟩ := h.counted hgiven
  refine ⟨hcounted.columns, fun st r' hr' hbelow => ?_⟩
  obtain ⟨_, _, hcontinues⟩ := execute_continues hs hcounted h.table? hr'
  obtain ⟨-, hearlier, -⟩ := hnumbers.ascending hgiven
  obtain ⟨hle, hnew, hascending⟩ := (hcontinues.consecutive hcounted).ascending hbelow
  refine ⟨hle, hcontinues.keepsNumbers hcounted, hascending, fun n hn => ?_⟩
  obtain ⟨hlower, hupper⟩ := hnew n hn
  exact ⟨hlower, hupper, fun m hm => Int64.lt_of_lt_of_le (hearlier m hm).2 hlower⟩

/-- The numbers that a statement gives to a table that is there before and after it. -/
def numbersGiven? (s : Session) (name : String) (st : Statement) : Option (List Int64) := do
  let r ← s.table? name
  let r' ← (s.execute st).2.table? name
  return r.added r'

/-- A table lives on through a statement that gives it numbers. -/
theorem Lives.next {more : List Int64} (h : Lives options name s r given) (st : Statement)
    (hmore : s.numbersGiven? name st = some more) :
    ∃ r', (s.execute st).2.table? name = some r' ∧ r.added r' = more ∧
      Lives options name (s.execute st).2 r' (given ++ more) := by
  obtain ⟨r₀, hr, hmore⟩ := Option.bind_eq_some_iff.1 hmore
  obtain ⟨r', hr', hmore⟩ := Option.bind_eq_some_iff.1 hmore
  rw [h.table?] at hr
  cases hr
  cases hmore
  exact ⟨r', hr', rfl, .kept h hr'⟩

/-- A session with an empty table that numbers its rows. -/
def numbered : Session :=
  ((new .standard ⟨0, []⟩).execute ⟨"CREATE TABLE t (id INT AUTOINCREMENT, a INT)", []⟩).2

/-- An `INSERT` of two rows into it. -/
def insertTwo : Statement := ⟨"INSERT INTO t (a) VALUES (1), (2)", []⟩

/-- The numbers go on behind rows that are gone: two rows are numbered, the table is emptied, an
`INSERT` is refused, and the next two rows take the next two numbers. -/
theorem numbers_ascend_afterTruncate :
    let emptied := ((numbered.execute insertTwo).2.execute ⟨"TRUNCATE TABLE t", []⟩).2
    let refused := (emptied.execute ⟨"INSERT INTO t (a) VALUES (3), ('x')", []⟩).2
    ∃ r r', Lives .standard "t" refused r [1, 2] ∧
      (refused.execute insertTwo).2.table? "t" = some r' ∧ r.added r' = [3, 4] ∧
      (∀ n ∈ [1, 2], n < Int64.maxValue) ∧ (∀ n ∈ r.added r', n < Int64.maxValue) ∧
      r.nextNumber ≤ r'.nextNumber ∧ ∀ n ∈ r.added r', ∀ m ∈ [1, 2], m < n := by
  intro emptied refused
  obtain ⟨r, hr⟩ := Option.isSome_iff_exists.1
    (by decide +kernel : (numbered.table? "t").isSome = true)
  have hempty : new .standard ⟨0, []⟩ = ((new .standard ⟨0, []⟩).run []).2 := rfl
  have hcreated : Lives .standard "t" numbered r [] := .created hempty rfl hr
  obtain ⟨r, -, -, hinserted⟩ := hcreated.next insertTwo
    (by decide +kernel : numbered.numbersGiven? "t" insertTwo = some [1, 2])
  obtain ⟨r, -, -, hemptied⟩ := hinserted.next ⟨"TRUNCATE TABLE t", []⟩
    (by decide +kernel : (numbered.execute insertTwo).2.numbersGiven? "t" _ = some [])
  obtain ⟨r, -, -, hrefused⟩ := hemptied.next ⟨"INSERT INTO t (a) VALUES (3), ('x')", []⟩
    (by decide +kernel : emptied.numbersGiven? "t" _ = some [])
  obtain ⟨r', hr', hadded, -⟩ := hrefused.next insertTwo
    (by decide +kernel : refused.numbersGiven? "t" insertTwo = some [3, 4])
  have hgiven : ∀ n ∈ [1, 2], n < Int64.maxValue :=
    List.forall_mem_cons.2 ⟨by decide, List.forall_mem_singleton.2 (by decide)⟩
  have hbelow : ∀ n ∈ r.added r', n < Int64.maxValue := by
    rw [hadded]
    exact List.forall_mem_cons.2 ⟨by decide, List.forall_mem_singleton.2 (by decide)⟩
  obtain ⟨hle, -, -, hnew⟩ := (hrefused.numbers_ascend hgiven).2 insertTwo r' hr' hbelow
  exact ⟨r, r', hrefused, hr', hadded, hgiven, hbelow, hle, fun n hn => (hnew n hn).2.2⟩

end Session
end MiniSql
