/-
# One insert or several

An `INSERT` with several tuples is answered exactly where the inserts of its tuples, run one after
the other, are all answered; then both leave the same session, and the answer of the first is put
together from theirs (`Session.execute_batch`).

| part of the answer | several tuples | one tuple each |
| --- | --- | --- |
| how many rows there are | the number of tuples | one |
| last number | the last one | the last answer has it |
| returned values | all of them | one each |
-/

import MiniSql.Proofs.Plan.Insert
import MiniSql.Proofs.Session.Stamps
import MiniSql.Proofs.Store.Batch

namespace MiniSql

open Timed
open Grammar (Tree)
open MiniSql.Relation (Inserted)

/-! ## Tables under names -/

namespace Catalog

variable {c : Catalog} {name : String} {r r' : Relation}

/-- To put a table back as it was changes nothing. -/
theorem put_self (h : c.tables.get? name = some r) : c.put name r = c := by
  refine congrArg Catalog.mk (SortedMap.ext_get? fun k => ?_)
  rw [SortedMap.get?_insert]
  split
  · rename_i hk
    rw [← hk, h]
  · rfl

/-- Of two tables put under one name the later is there. -/
theorem put_put : (c.put name r).put name r' = c.put name r' := by
  refine congrArg Catalog.mk (SortedMap.ext_get? fun k => ?_)
  simp only [put, SortedMap.get?_insert]
  split <;> rfl

end Catalog

/-! ## Answers -/

/-- The answer is that of one `INSERT` for the answers of several. -/
inductive Answer.Gathers : List Answer → Answer → Prop
  | inserted {numbers : List (Option Int64)} {last : Option Int64}
      (h : numbers.getLast? = some last) :
      Gathers (numbers.map (.inserted 1)) (.inserted numbers.length last)
  | returned (column : String) (values : List Value) :
      Gathers (values.map fun v => .rows ⟨[column], [[v]]⟩)
        (.rows ⟨[column], values.map fun v => [v]⟩)

namespace Answer

variable {s : Schema} {column : Option ColumnRef} {each : List Inserted} {b : Bool}

/-- Single rows are the rows of the batch. -/
theorem map_rows {α : Type} (h : ∀ stored ∈ each, stored.rows.length = 1) (f : List Row → α) :
    each.map (fun stored => f stored.rows) =
      (each.flatMap (·.rows)).map fun row => f [row] := by
  induction each with
  | nil => rfl
  | cons first each ih =>
    obtain ⟨hfirst, h⟩ := List.forall_mem_cons.1 h
    obtain ⟨row, hrow⟩ := List.length_eq_one_iff.1 hfirst
    rw [List.map_cons, List.flatMap_cons, ih h, hrow]
    rfl

/-- Rows are counted, and the last of them has the last number. -/
theorem gathers_inserted (hne : each ≠ [])
    (h : ∀ stored ∈ each, stored.rows.length = 1 ∧ stored.lastNumber.isSome = b) :
    Gathers (each.map fun stored => .inserted stored.rows.length stored.lastNumber)
      (.inserted (Inserted.total each).rows.length (Inserted.total each).lastNumber) := by
  have hlast := List.getLast?_eq_some_getLast hne
  have hlength : (Inserted.total each).rows.length = (each.map (·.lastNumber)).length := by
    have hrows := congrArg List.length (map_rows (fun stored hstored => (h stored hstored).1) id)
    rw [List.length_map, List.length_map] at hrows
    rw [Inserted.rows_total, List.length_map, hrows]
  have hnumbers : (each.map (·.lastNumber)).map (Answer.inserted 1) =
      each.map fun stored => .inserted stored.rows.length stored.lastNumber := by
    rw [List.map_map]
    exact List.map_congr_left fun stored hstored => by rw [(h stored hstored).1]; rfl
  rw [← hnumbers, hlength]
  refine .inserted ?_
  rw [List.getLast?_map, hlast,
    Inserted.lastNumber_total (fun stored hstored => (h stored hstored).2) hlast]
  rfl

/-- The values of a column are returned of all rows. -/
theorem gathers_returned (h : ∀ stored ∈ each, stored.rows.length = 1) (name : String)
    (position : Nat) :
    Gathers
      (each.map fun stored =>
        .rows ⟨[name], stored.rows.map fun row => [Relation.valueAt position row]⟩)
      (.rows ⟨[name], (Inserted.total each).rows.map fun row =>
        [Relation.valueAt position row]⟩) := by
  rw [map_rows h fun rows => Answer.rows
    ⟨[name], rows.map fun row => [Relation.valueAt position row]⟩, Inserted.rows_total]
  have hgathers := Gathers.returned name ((each.flatMap (·.rows)).map (Relation.valueAt position))
  rw [List.map_map, List.map_map] at hgathers
  exact hgathers

/-- What an `INSERT` of several rows answers is put together from what those of one row answer. -/
theorem ofInsert_cases (s : Schema) (column : Option ColumnRef) :
    (∃ e, ∀ stored, ofInsert s column stored = .error e) ∨
      ∃ f : Inserted → Answer, (∀ stored, ofInsert s column stored = .ok (f stored)) ∧
        ∀ each b, each ≠ [] →
          (∀ stored ∈ each, stored.rows.length = 1 ∧ stored.lastNumber.isSome = b) →
            Gathers (each.map f) (f (.total each)) := by
  cases column with
  | none => exact .inr ⟨_, fun _ => rfl, fun _ _ hne h => gathers_inserted hne h⟩
  | some c =>
    cases hposition : c.resolve s.labels with
    | error e =>
      refine .inl ⟨e, fun stored => ?_⟩
      simp only [ofInsert, hposition]
      rfl
    | ok position =>
      refine .inr ⟨fun stored => .rows
        ⟨[c.name], stored.rows.map fun row => [Relation.valueAt position row]⟩, fun stored => ?_,
        fun each _ _ h => gathers_returned (fun stored hstored => (h stored hstored).1) c.name
          position⟩
      simp only [ofInsert, hposition]
      rfl

end Answer

namespace Session

variable {options : Options} {s s' : Session} {st batch : Statement} {singles : List Statement}
  {name : String} {columns : List String} {column : Option ColumnRef} {r : Relation}
  {tuples : List (List Expression)} {answer : Answer} {answers : List Answer}

/-! ## Running inserts -/

/-- The session, later, with a table in the place of another. -/
def withTable (s : Session) (name : String) (r : Relation) (clock : Time.Clock) : Session :=
  ⟨{ s.database with catalog := s.database.catalog.put name r }, clock⟩

/-- The table of a session is the one it was given. -/
theorem table?_withTable {clock : Time.Clock} :
    (s.withTable name r clock).table? name = some r :=
  Catalog.get?_put_self s.database.catalog name r

/-- Of two tables given the later is there. -/
theorem withTable_withTable {clock clock' : Time.Clock} {r' : Relation} :
    (s.withTable name r clock).withTable name r' clock' = s.withTable name r' clock' := by
  simp only [withTable, Catalog.put_put]

/-- **An `INSERT` is answered** when its rows can be inserted, and what it returns is a column. -/
theorem execute_insert (hplan : s.plan st = .ok (.insert name columns tuples column)) :
    s.execute st = (.ok answer, s') ↔ ∃ r r' stored t, s.table? name = some r ∧
      Gives (Mutation.insert r columns tuples) s.clock (r', stored) t ∧
        Answer.ofInsert r.schema column stored = .ok answer ∧ s' = s.withTable name r' t := by
  have hrefused {e : Error} {t : Time.Clock}
      (h : Refuses ((Plan.insert name columns tuples column).run
        s.database.options.autoincrementStart s.database.catalog) s.clock e t) :
      s.execute st ≠ (.ok answer, s') := by
    rw [execute_eq (Database.execute_of_refuses hplan h)]
    exact fun h => nomatch h
  cases hr : s.table? name with
  | none => exact iff_of_false (hrefused (Plan.refuses_run rfl hr)) (by simp)
  | some r =>
    rcases gives_or_refuses (Mutation.insert r columns tuples) s.clock with
      ⟨⟨r', stored⟩, t, hgives⟩ | ⟨e, t, hrefuses⟩
    · have hrun : Gives ((Plan.insert name columns tuples column).run
          s.database.options.autoincrementStart s.database.catalog) s.clock
          (s.database.catalog.put name r', Answer.ofInsert r.schema column stored) t := by
        rw [Plan.run_insert hr]
        exact gives_bind.2 ⟨_, t, hgives, gives_pure.2 ⟨rfl, rfl⟩⟩
      rw [execute_eq (Database.execute_of_gives hplan hrun), Prod.mk.injEq]
      constructor
      · rintro ⟨hanswer, rfl⟩
        exact ⟨r, r', stored, t, rfl, hgives, hanswer, rfl⟩
      · rintro ⟨_, _, _, _, ⟨⟩, hgives', hanswer, rfl⟩
        obtain ⟨hsame, rfl⟩ := hgives.unique hgives'
        cases hsame
        exact ⟨hanswer, rfl⟩
    · refine iff_of_false (hrefused (e := e) (t := t) ?_) ?_
      · rw [Plan.run_insert hr]
        exact refuses_bind.2 (.inl hrefuses)
      · rintro ⟨_, _, _, _, ⟨⟩, hgives, -⟩
        exact hgives.not_refuses hrefuses

/-- **Inserts of one tuple each are all answered** when their rows can be inserted in turn. -/
theorem run_inserts {strict : Bool} (hstrict : s.database.options.strictParams = strict)
    (hsingles : List.Forall₂ (fun (st : Statement) tuple => Plan.ofText st.sql st.arguments strict =
      .ok (.insert name columns [tuple] column)) singles tuples)
    (hr : s.table? name = some r) :
    s.run singles = (answers.map .ok, s') ↔ ∃ each r' t,
      Mutation.InTurn columns r s.clock tuples each r' t ∧
        List.Forall₂ (fun stored answer => Answer.ofInsert r.schema column stored = .ok answer)
          each answers ∧ s' = s.withTable name r' t := by
  -- Each insert is carried out on the table that the one before it has left.
  induction hsingles generalizing s r answers with
  | nil =>
    have hself : s.withTable name r s.clock = s := by rw [withTable, Catalog.put_self hr]
    rw [run, Prod.mk.injEq, List.nil_eq, List.map_eq_nil_iff]
    constructor
    · rintro ⟨rfl, rfl⟩
      exact ⟨[], r, _, .nil r _, .nil, hself.symm⟩
    · rintro ⟨_, _, _, ⟨⟩, ⟨⟩, rfl⟩
      exact ⟨rfl, hself.symm⟩
  | @cons st tuple singles tuples hst hsingles ih =>
    have hst : s.plan st = .ok (.insert name columns [tuple] column) := by rw [plan, hstrict, hst]
    rw [run, Prod.mk.injEq]
    constructor
    · rintro ⟨hanswers, hs'⟩
      obtain ⟨answer, answers, rfl, hanswer, hrest⟩ := List.map_eq_cons_iff.1 hanswers.symm
      have hfirst : s.execute st = (.ok answer, (s.execute st).2) := by rw [hanswer]
      obtain ⟨_, r₁, first, mid, hr', hinsert, hstored, hs₁⟩ := (execute_insert hst).1 hfirst
      cases hr.symm.trans hr'
      have hschema := (Mutation.Step.insert hinsert).relation.schema_eq
      rw [hs₁] at hrest hs'
      obtain ⟨each, r', t, heach, hanswers, hs'⟩ :=
        (ih (s := s.withTable name r₁ mid) hstrict table?_withTable).1 (Prod.ext hrest.symm hs')
      rw [hschema] at hanswers
      rw [withTable_withTable] at hs'
      exact ⟨first :: each, r', t, .cons hinsert heach, .cons hstored hanswers, hs'⟩
    · rintro ⟨_, r', t, heach, hanswers, rfl⟩
      cases heach with
      | @cons _ r₁ _ _ mid _ _ _ first each hinsert heach =>
        cases hanswers with
        | @cons _ answer _ answers hstored hanswers =>
          have hschema := (Mutation.Step.insert hinsert).relation.schema_eq
          rw [← hschema] at hanswers
          rw [(execute_insert hst).2 ⟨r, r₁, first, mid, hr, hinsert, hstored, rfl⟩,
            (ih (s := s.withTable name r₁ mid) hstrict table?_withTable).2
              ⟨each, r', t, heach, hanswers, withTable_withTable.symm⟩]
          exact ⟨rfl, rfl⟩

/-- What is answered has a plan. -/
theorem plan_of_run (h : s.run singles = (answers.map .ok, s')) :
    ∀ st ∈ singles, ∃ plan, s.plan st = .ok plan := by
  induction singles generalizing s answers with
  | nil => exact fun _ h => nomatch h
  | cons st singles ih =>
    rw [run, Prod.mk.injEq] at h
    obtain ⟨answer, rest, rfl, hanswer, hrest⟩ := List.map_eq_cons_iff.1 h.1.symm
    have hsame (st' : Statement) : (s.execute st).2.plan st' = s.plan st' := by
      rw [plan, plan, options_execute]
    refine List.forall_mem_cons.2 ⟨?_, fun st' hst' => ?_⟩
    · cases hplan : s.plan st with
      | ok p => exact ⟨p, rfl⟩
      | error e =>
        rw [execute_eq (Database.execute_of_fault hplan)] at hanswer
        cases hanswer
    · rw [← hsame]
      exact ih (Prod.ext hrest.symm h.2) st' hst'

/-! ## Several tuples and one tuple each -/

/-- The schema of every table passes the check. -/
theorem Reached.validate (h : s.Reached options) :
    ∀ e ∈ s.database.catalog.tables.entries, e.2.schema.validate = .ok () := by
  obtain ⟨clock, h⟩ := h
  induction h with
  | refl => exact fun _ he => nomatch he
  | wait _ _ ih => exact ih
  | @execute mid _ st ih =>
    rcases execute_cases mid st with ⟨hsame, -⟩ | ⟨p, c, -, -, hgives, hafter⟩
    · rw [hsame]
      exact ih
    rw [hafter]
    rcases Plan.carryOut_cases hgives with rfl | ⟨schema, _, -, hvalid, -, rfl⟩ | ⟨table, rfl⟩ |
      ⟨table, r, r', hr, hstep, rfl⟩
    · exact ih
    · intro e he
      rcases SortedMap.mem_entries_insert.1 he with rfl | ⟨he, -⟩
      · exact hvalid
      · exact ih e he
    · exact fun e he => ih e (SortedMap.mem_entries_erase.1 he).1
    · intro e he
      rcases SortedMap.mem_entries_insert.1 he with rfl | ⟨he, -⟩
      · exact hstep.relation.schema_eq ▸ ih _ (SortedMap.mem_entries_of_get? hr)
      · exact ih e he

/-- In a reached session the numbers of every table ascend. -/
theorem Reached.ascends (h : s.Reached options) :
    ∀ e ∈ s.database.catalog.tables.entries, e.2.log.Ascends :=
  h.tables (P := fun _ r => r.log.Ascends)
    (fun schema _ start => (Relation.Reachable.new schema start).ascends)
    (fun _ _ _ hr h => h.ascends hr)

/-- The statement is answered exactly where the others all are, run one after the other. Then both
leave the same session, and its answer is put together from theirs. -/
structure Batches (s : Session) (batch : Statement) (singles : List Statement) : Prop where
  each : ∀ answer s', s.execute batch = (.ok answer, s') →
    ∃ answers, s.run singles = (answers.map .ok, s') ∧ Answer.Gathers answers answer
  all : ∀ answers s', s.run singles = (answers.map .ok, s') →
    ∃ answer, s.execute batch = (.ok answer, s') ∧ Answer.Gathers answers answer

/-- Where the table is missing none of the statements is answered. -/
theorem batches_of_missing (hr : s.table? name = none)
    (hbatch : s.plan batch = .ok (.insert name columns tuples column)) (hne : tuples ≠ [])
    (hsingles : List.Forall₂ (fun st tuple => s.plan st =
      .ok (.insert name columns [tuple] column)) singles tuples) : s.Batches batch singles := by
  have hmissed {st : Statement} {tuples : List (List Expression)} {answer : Answer} {s' : Session}
      (hplan : s.plan st = .ok (.insert name columns tuples column)) :
      s.execute st ≠ (.ok answer, s') := by
    intro h
    obtain ⟨r, _, _, _, hr', -⟩ := (execute_insert hplan).1 h
    cases hr.symm.trans hr'
  refine ⟨fun answer s' h => absurd h (hmissed hbatch), fun answers s' h => ?_⟩
  -- There is a first tuple, and the table is missed for it too.
  cases hsingles with
  | nil => exact absurd rfl hne
  | cons hst _ =>
    rw [run, Prod.mk.injEq] at h
    obtain ⟨answer, _, -, hanswer, -⟩ := List.map_eq_cons_iff.1 h.1.symm
    exact (hmissed hst (Prod.ext hanswer.symm rfl)).elim

/-- Statements with plans: one inserts the tuples, the others a tuple each. -/
theorem Reached.batches (hs : s.Reached options)
    (hbatch : s.plan batch = .ok (.insert name columns tuples column)) (hne : tuples ≠ [])
    (huntimed : Mutation.Untimed tuples)
    (hsingles : List.Forall₂ (fun st tuple => s.plan st =
      .ok (.insert name columns [tuple] column)) singles tuples) : s.Batches batch singles := by
  rcases hr : s.table? name with _ | r
  · exact batches_of_missing hr hbatch hne hsingles
  have he := SortedMap.mem_entries_of_get? hr
  have hcolumns := Schema.columnFault?_of_validate (hs.validate _ he)
  have hinserts {r' : Relation} {stored : Inserted} {t : Time.Clock} :
      Gives (Mutation.insert r columns tuples) s.clock (r', stored) t ↔
        ∃ each, Mutation.InTurn columns r s.clock tuples each r' t ∧
          stored = Inserted.total each :=
    Mutation.gives_insert_iff_inTurn (hs.ascends _ he) hcolumns huntimed
  have hparts {r' : Relation} {each : List Inserted} {t : Time.Clock}
      (heach : Mutation.InTurn columns r s.clock tuples each r' t) :
      each ≠ [] ∧ ∀ stored ∈ each, stored.rows.length = 1 ∧
        stored.lastNumber.isSome = decide (0 < r.schema.columns.countP (·.autoincrement)) := by
    refine ⟨fun hnil => hne ?_, (heach.each hcolumns).2⟩
    rw [← List.length_eq_zero_iff, ← (heach.each hcolumns).1, hnil]
    rfl
  have hanswers := Answer.ofInsert_cases r.schema column
  refine ⟨fun answer s' h => ?_, fun answers s' h => ?_⟩
  · -- From the batch to the inserts in turn.
    obtain ⟨_, r', _, t, hr', hinsert, hanswer, rfl⟩ := (execute_insert hbatch).1 h
    cases hr.symm.trans hr'
    obtain ⟨each, heach, rfl⟩ := hinserts.1 hinsert
    obtain ⟨hnonempty, hone⟩ := hparts heach
    rcases hanswers with ⟨e, hrefused⟩ | ⟨f, hf, hgathers⟩
    · cases (hrefused _).symm.trans hanswer
    · cases (hf _).symm.trans hanswer
      refine ⟨each.map f, (run_inserts rfl hsingles hr).2 ⟨each, r', t, heach, ?_, rfl⟩,
        hgathers each _ hnonempty hone⟩
      exact List.forall₂_map_right_iff.2 (List.forall₂_same.2 fun stored _ => hf stored)
  · -- And back.
    obtain ⟨each, r', t, heach, heachAnswer, rfl⟩ := (run_inserts rfl hsingles hr).1 h
    obtain ⟨hnonempty, hone⟩ := hparts heach
    rcases hanswers with ⟨e, hrefused⟩ | ⟨f, hf, hgathers⟩
    · cases heachAnswer with
      | nil => exact absurd rfl hnonempty
      | cons hanswer _ => cases (hrefused _).symm.trans hanswer
    · obtain rfl : answers = each.map f :=
        Except.forall₂_eq_map.1 (heachAnswer.flip.imp fun answer stored h =>
          Except.ok.inj (h.symm.trans (hf stored)))
      exact ⟨f (.total each), (execute_insert hbatch).2 ⟨r, r', _, t, hr,
        hinserts.2 ⟨each, heach, rfl⟩, hf _, rfl⟩, hgathers each _ hnonempty hone⟩

variable {returning : Option Tree} {values : List (List (Except Error Expression))} {strict : Bool}

/-- Where single tuples have plans, the values of all of them are planned. -/
theorem planned_of_singles
    (hsingles : List.Forall₂ (fun st v => Statement.Inserts st strict name columns returning [v])
      singles values)
    (h : ∀ st ∈ singles, ∃ plan, Plan.ofText st.sql st.arguments strict = .ok plan) :
    ∃ tuples : List (List Expression), values = tuples.map (·.map .ok) := by
  induction hsingles with
  | nil => exact ⟨[], rfl⟩
  | @cons st v singles values hst _ ih =>
    obtain ⟨⟨plan, hplan⟩, h⟩ := List.forall_mem_cons.1 h
    obtain ⟨tuple, hv, -⟩ := hst.ofText_eq_ok.1 hplan
    obtain ⟨tuples, rfl⟩ := ih h
    cases tuple with
    | nil => cases hv
    | cons tuple _ => exact ⟨tuple :: tuples, by rw [(List.cons.inj hv).1]; rfl⟩

/-- **An `INSERT` of several tuples is answered exactly where the inserts of its tuples are all
answered**, run one after the other. Then both leave the same session, and the answer of the first
counts the tuples and has the number that the last of the others has. -/
theorem Reached.execute_batch (hs : s.Reached options)
    (hbatch : batch.Inserts s.database.options.strictParams name columns returning values)
    (hsingles : List.Forall₂ (fun st v =>
      Statement.Inserts st s.database.options.strictParams name columns returning [v])
      singles values)
    (huntimed : Planning.Untimed values) : s.Batches batch singles := by
  -- Either side is answered only where the values are all planned; then there are plans for both.
  have hplanned {tuples : List (List Expression)} (hvalues : values = tuples.map (·.map .ok)) :
      s.Batches batch singles := by
    subst hvalues
    have hplan := hbatch.ofText_eq_ok.2 ⟨tuples, rfl, rfl⟩
    refine hs.batches hplan (Plan.proper_of_ofText hplan) (Planning.untimed_map.1 huntimed)
      ((List.forall₂_map_right_iff.1 hsingles).imp fun st tuple hst => ?_)
    exact hst.ofText_eq_ok.2 ⟨[tuple], rfl, rfl⟩
  refine ⟨fun answer s' h => ?_, fun answers s' h => ?_⟩
  · have hrun : s.run [batch] = ([answer].map .ok, s') := by
      rw [run, h]
      rfl
    obtain ⟨plan, hplan⟩ := plan_of_run hrun batch List.mem_cons_self
    obtain ⟨tuples, hvalues, -⟩ := hbatch.ofText_eq_ok.1 hplan
    exact (hplanned hvalues).each answer s' h
  · obtain ⟨tuples, hvalues⟩ := planned_of_singles hsingles (plan_of_run h)
    exact (hplanned hvalues).all answers s' h

/-- A session with a table whose rows are numbered, with one row. -/
def oneNumbered : Session :=
  ((new .standard ⟨0, []⟩).run [⟨"CREATE TABLE t (id INT PRIMARY KEY AUTOINCREMENT, a INT,
      b TEXT DEFAULT 'x', made TIMESTAMP DEFAULT CURRENT_TIMESTAMP)", []⟩,
    ⟨"INSERT INTO t (a) VALUES (0)", []⟩]).2

/-- Three tuples, with a default, a `NULL` and an argument. -/
def threeTuples : Statement :=
  ⟨"INSERT INTO t (b, id, a) VALUES ('p', DEFAULT, 1), (DEFAULT, NULL, $1), (NULL, NULL, 3)",
    [.integer 2]⟩

/-- The tuples, one at a time. -/
def eachTuple : List Statement :=
  [⟨"INSERT INTO t (b, id, a) VALUES ('p', DEFAULT, 1)", []⟩,
    ⟨"INSERT INTO t (b, id, a) VALUES (DEFAULT, NULL, $1)", [.integer 2]⟩,
    ⟨"INSERT INTO t (b, id, a) VALUES (NULL, NULL, 3)", []⟩]

/-- The values of the tuples. -/
def tupleValues : List (List Expression) :=
  [[.constant (.text "p"), .default, .constant (.integer 1)],
    [.default, .constant .null, .constant (.integer 2)],
    [.constant .null, .constant .null, .constant (.integer 3)]]

/-- The tuples are numbered from 2 to 4, together and one by one. -/
theorem execute_batch_threeTuples :
    (oneNumbered.execute threeTuples).1 = .ok (.inserted 3 (some 4)) ∧
      (((oneNumbered.execute threeTuples).2.table? "t").map fun r =>
        r.scan.map fun e => (e.1, e.2.take 3)) =
          some [(0, [.integer 1, .integer 0, .text "x"]), (1, [.integer 2, .integer 1, .text "p"]),
            (2, [.integer 3, .integer 2, .text "x"]), (3, [.integer 4, .integer 3, .null])] ∧
      ∃ answers, oneNumbered.run eachTuple =
          (answers.map .ok, (oneNumbered.execute threeTuples).2) ∧
        Answer.Gathers answers (.inserted 3 (some 4)) := by
  have hreached : oneNumbered.Reached .standard := reached_run _ _ _
  have hrun : (oneNumbered.execute threeTuples).1 = .ok (.inserted 3 (some 4)) ∧
      (((oneNumbered.execute threeTuples).2.table? "t").map fun r =>
        r.scan.map fun e => (e.1, e.2.take 3)) =
          some [(0, [.integer 1, .integer 0, .text "x"]), (1, [.integer 2, .integer 1, .text "p"]),
            (2, [.integer 3, .integer 2, .text "x"]), (3, [.integer 4, .integer 3, .null])] := by
    decide +kernel
  have hstrict : oneNumbered.database.options.strictParams = Options.standard.strictParams :=
    congrArg Options.strictParams (options_run _ _)
  -- The trees of the values, with and without the argument.
  let first : List Tree := [.leaf .string "p", .word .DEFAULT [], .leaf .number "1"]
  let second : List Tree := [.word .DEFAULT [], .word .NULL [], .leaf .placeholder "$1"]
  let third : List Tree := [.word .NULL [], .word .NULL [], .leaf .number "3"]
  have hbatch : threeTuples.Inserts oneNumbered.database.options.strictParams "t" ["b", "id", "a"]
      none (tupleValues.map (·.map .ok)) :=
    ⟨[first, second, third], by decide +kernel, by rw [hstrict]; decide +kernel, rfl⟩
  have hsingles : List.Forall₂ (fun st v => Statement.Inserts st
      oneNumbered.database.options.strictParams "t" ["b", "id", "a"] none [v]) eachTuple
      (tupleValues.map (·.map .ok)) :=
    .cons ⟨[first], by decide +kernel, by rw [hstrict]; decide +kernel, rfl⟩
      (.cons ⟨[second], by decide +kernel, by rw [hstrict]; decide +kernel, rfl⟩
        (.cons ⟨[third], by decide +kernel, by rw [hstrict]; decide +kernel, rfl⟩ .nil))
  have huntimed : Planning.Untimed (tupleValues.map (·.map .ok)) :=
    Planning.untimed_map.2 (by decide)
  have hanswer : oneNumbered.execute threeTuples =
      (.ok (.inserted 3 (some 4)), (oneNumbered.execute threeTuples).2) :=
    Prod.mk.eta.symm.trans (congrArg (·, _) hrun.1)
  exact ⟨hrun.1, hrun.2, (hreached.execute_batch hbatch hsingles huntimed).each _ _ hanswer⟩

end Session
end MiniSql
