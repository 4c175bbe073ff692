/-
# What a statement leaves alone

A statement names the table that it creates, drops or changes (`Plan.target?`). Whether it is
refused or not, all other names stand for the tables that they stood for, or for none
(`Session.execute_frame`):

| statement | tables that it may touch |
| --- | --- |
| a query, or no statement | none |
| `CREATE TABLE IF NOT EXISTS` of an existing table | none |
| `DROP TABLE IF EXISTS` of a missing one | none |
| any other | the one that it names |

A table that is created where one was dropped takes nothing over from it.
-/

import MiniSql.Proofs.Session.Step

namespace MiniSql

open Timed

variable {t t' : Time.Clock} {start : Int64} {c c' : Catalog} {name : String}

/-- The table that a plan creates, drops or changes. -/
def Plan.target? : Plan → Option String
  | createTable schema _ => some schema.name
  | dropTable table _ => some table
  | truncate table => some table
  | insert table _ _ _ => some table
  | update table _ _ => some table
  | delete table _ => some table
  | query _ => none

/-! ## Catalogs -/

namespace Catalog

variable {s : Schema} {ifNotExists ifExists flag : Bool}

/-- A catalog has a table if it is found. -/
theorem has_eq (c : Catalog) (name : String) : c.has name = (c.tables.get? name).isSome := rfl

/-- Putting a table leaves every other one. -/
theorem get?_put_of_ne {other : String} (h : other ≠ name) (r : Relation) :
    (c.put other r).tables.get? name = c.tables.get? name := by
  rw [put, SortedMap.get?_insert, if_neg h]

/-- An existing table is kept. -/
theorem create_of_has (hs : c.has s.name = true)
    (h : c.create s true start = .ok (c', flag)) : c' = c := by
  rcases create_cases h with rfl | ⟨-, hnew, -⟩
  · rfl
  · rw [hs] at hnew
    cases hnew

/-- A new table is created if its schema is valid, and only then. -/
theorem create_of_new (hs : c.has s.name = false) : c.create s ifNotExists start =
    s.validate.map fun _ => (c.put s.name (.new s start), true) := by
  unfold create
  rw [hs]
  cases s.validate <;> rfl

/-- A missing table is passed over. -/
theorem drop_of_not_has (hname : c.has name = false)
    (h : c.drop name true = .ok (c', flag)) : c' = c := by
  rw [drop, hname, if_neg Bool.false_ne_true, if_pos rfl] at h
  cases h
  rfl

/-- A table that is dropped is not there. -/
theorem not_has_of_drop (h : c.drop name ifExists = .ok (c', flag)) : c'.has name = false := by
  unfold drop at h
  split at h
  · cases h
    rw [has_eq, SortedMap.get?_erase, if_pos rfl]
    rfl
  · rename_i hmissing
    split at h
    · cases h
      exact Bool.eq_false_iff.2 hmissing
    · cases h

end Catalog

/-! ## Plans -/

/-- **A plan touches the table that it names**, and no other. -/
theorem Plan.carryOut_frame {p : Plan} {answer : Except Error Answer}
    (h : Gives (p.carryOut start c) t (c', answer) t') (hname : p.target? ≠ some name) :
    c'.tables.get? name = c.tables.get? name := by
  have hne {table : String} (htable : p.target? = some table) : table ≠ name := by
    rintro rfl
    exact hname htable
  cases p <;> simp only [carryOut, gives_bind, gives_ofExcept, gives_pure, Prod.exists,
    Prod.mk.injEq] at h
  case createTable s ifNotExists =>
    obtain ⟨_, _, _, ⟨hcreate, -⟩, ⟨rfl, -⟩, -⟩ := h
    rcases Catalog.create_cases hcreate with rfl | ⟨-, -, rfl⟩
    · rfl
    · exact Catalog.get?_put_of_ne (hne rfl) _
  case dropTable table ifExists =>
    obtain ⟨_, _, _, ⟨hdrop, -⟩, ⟨rfl, -⟩, -⟩ := h
    rcases Catalog.drop_cases hdrop with rfl | rfl
    · rfl
    · rw [SortedMap.get?_erase, if_neg (hne rfl)]
  case truncate table =>
    obtain ⟨_, _, -, ⟨rfl, -⟩, -⟩ := h
    exact Catalog.get?_put_of_ne (hne rfl) _
  case insert table columns rows returning =>
    obtain ⟨_, _, -, _, _, _, -, ⟨rfl, -⟩, -⟩ := h
    exact Catalog.get?_put_of_ne (hne rfl) _
  case update table predicate assignments =>
    obtain ⟨_, _, -, _, _, _, -, ⟨rfl, -⟩, -⟩ := h
    exact Catalog.get?_put_of_ne (hne rfl) _
  case delete table predicate =>
    obtain ⟨_, _, -, _, _, _, -, ⟨rfl, -⟩, -⟩ := h
    exact Catalog.get?_put_of_ne (hne rfl) _
  case query q =>
    obtain ⟨_, _, -, ⟨rfl, -⟩, -⟩ := h
    rfl

/-- A creation that is carried out creates what the catalog creates. -/
theorem Plan.create_of_carryOut {schema : Schema} {ifNotExists : Bool}
    {answer : Except Error Answer}
    (h : Gives ((createTable schema ifNotExists).carryOut start c) t (c', answer) t') :
    ∃ created, c.create schema ifNotExists start = .ok (c', created) := by
  simp only [carryOut, gives_bind, gives_ofExcept, gives_pure, Prod.exists, Prod.mk.injEq] at h
  obtain ⟨_, created, _, ⟨hcreate, -⟩, ⟨rfl, -⟩, -⟩ := h
  exact ⟨created, hcreate⟩

/-- A drop that is carried out drops what the catalog drops. -/
theorem Plan.drop_of_carryOut {ifExists : Bool} {answer : Except Error Answer}
    (h : Gives ((dropTable name ifExists).carryOut start c) t (c', answer) t') :
    ∃ dropped, c.drop name ifExists = .ok (c', dropped) := by
  simp only [carryOut, gives_bind, gives_ofExcept, gives_pure, Prod.exists, Prod.mk.injEq] at h
  obtain ⟨_, dropped, _, ⟨hdrop, -⟩, ⟨rfl, -⟩, -⟩ := h
  exact ⟨dropped, hdrop⟩

/-- A creation gives the catalog's answer. -/
theorem Plan.gives_createTable {schema : Schema} {ifNotExists created : Bool}
    (h : c.create schema ifNotExists start = .ok (c', created)) :
    Gives ((createTable schema ifNotExists).run start c) t (c', .ok (.created schema.name)) t := by
  show Gives (Timed.ofExcept (c.create schema ifNotExists start) >>= _) t _ t
  rw [h]
  rfl

/-- A creation is refused as the catalog refuses it. -/
theorem Plan.refuses_createTable {schema : Schema} {ifNotExists : Bool} {e : Error}
    (h : c.create schema ifNotExists start = .error e) :
    Refuses ((createTable schema ifNotExists).run start c) t e t := by
  show Refuses (Timed.ofExcept (c.create schema ifNotExists start) >>= _) t e t
  rw [h]
  rfl

/-! ## Statements -/

namespace Session

variable {s : Session} {st create : Statement}

/-- A statement leaves the database if every run of its plan leaves the catalog. -/
theorem database_execute {p : Plan} (hp : s.plan st = .ok p)
    (h : ∀ {c answer t'}, Gives (p.carryOut s.database.options.autoincrementStart
      s.database.catalog) s.clock (c, answer) t' → c = s.database.catalog) :
    (s.execute st).2.database = s.database := by
  rcases execute_cases s st with
    ⟨hkept, -⟩ | ⟨p', c, hp', -, hgives, hafter⟩
  · exact hkept
  · rw [hp] at hp'
    cases hp'
    rw [hafter, h hgives]

/-- A table that a session does not see is not there. -/
theorem has_of_table?_eq_none (h : s.table? name = none) :
    s.database.catalog.has name = false :=
  Option.isSome_eq_false_iff.2 (Option.isNone_iff_eq_none.2 h)

/-- A statement leaves every table that it does not aim at. -/
theorem table?_of_execute (h : ∀ p, s.plan st = .ok p → p.target? ≠ some name) :
    (s.execute st).2.table? name = s.table? name := by
  rcases execute_cases s st with
    ⟨hkept, -⟩ | ⟨p, c, hp, -, hgives, hafter⟩
  · rw [table?, hkept]
    rfl
  · rw [table?, hafter]
    exact Plan.carryOut_frame hgives (h p hp)

/-- A query changes no database. -/
theorem execute_query {q : Query} (hp : s.plan st = .ok (.query q)) :
    (s.execute st).2.database = s.database := by
  refine database_execute hp fun h => ?_
  simp only [Plan.carryOut, gives_bind, gives_pure, Prod.mk.injEq] at h
  obtain ⟨_, _, -, ⟨rfl, -⟩, -⟩ := h
  rfl

/-- Creating a table that is there changes no database, where that is allowed. -/
theorem execute_createExisting {schema : Schema} (hp : s.plan st = .ok (.createTable schema true))
    (hs : (s.table? schema.name).isSome) : (s.execute st).2.database = s.database := by
  refine database_execute hp fun h => ?_
  obtain ⟨created, hcreate⟩ := Plan.create_of_carryOut h
  exact Catalog.create_of_has hs hcreate

/-- Dropping a table that is missing changes no database, where that is allowed. -/
theorem execute_dropMissing (hp : s.plan st = .ok (.dropTable name true))
    (hname : s.table? name = none) : (s.execute st).2.database = s.database := by
  refine database_execute hp fun h => ?_
  obtain ⟨dropped, hdrop⟩ := Plan.drop_of_carryOut h
  exact Catalog.drop_of_not_has (has_of_table?_eq_none hname) hdrop

/-- After a `DROP TABLE` that is carried out there is no table of the name. -/
theorem table?_of_dropped {ifExists : Bool} {answer : Answer}
    (hp : s.plan st = .ok (.dropTable name ifExists)) (h : (s.execute st).1 = .ok answer) :
    (s.execute st).2.table? name = none := by
  rcases execute_cases s st with
    ⟨-, e, hrefused⟩ | ⟨p, c, hp', -, hgives, hafter⟩
  · rw [h] at hrefused
    cases hrefused
  · rw [hp] at hp'
    cases hp'
    obtain ⟨dropped, hdrop⟩ := Plan.drop_of_carryOut hgives
    have hmissing := Catalog.not_has_of_drop hdrop
    rw [Catalog.has_eq, Option.isSome_eq_false_iff, Option.isNone_iff_eq_none] at hmissing
    rw [table?, hafter]
    exact hmissing

/-- A `CREATE TABLE` of a new name is refused if the schema is not valid. Otherwise it gives a table
without rows, and with counters that have not moved. -/
theorem execute_createNew {schema : Schema} {ifNotExists : Bool}
    (hp : s.plan create = .ok (.createTable schema ifNotExists))
    (hnew : s.table? schema.name = none) :
    (∀ e, schema.validate = .error e → (s.execute create).1 = .error e ∧
        (s.execute create).2.table? schema.name = none) ∧
      (schema.validate = .ok () → (s.execute create).1 = .ok (.created schema.name) ∧
        (s.execute create).2.table? schema.name =
          some (.new schema s.database.options.autoincrementStart)) := by
  have hcreate : s.database.catalog.create schema ifNotExists
      s.database.options.autoincrementStart = schema.validate.map fun _ =>
        (s.database.catalog.put schema.name (.new schema s.database.options.autoincrementStart),
          true) := Catalog.create_of_new (has_of_table?_eq_none hnew)
  constructor
  · intro e he
    rw [he] at hcreate
    rw [execute_eq (Database.execute_of_refuses hp (Plan.refuses_createTable hcreate))]
    exact ⟨rfl, hnew⟩
  · intro hvalid
    rw [hvalid] at hcreate
    rw [execute_eq (Database.execute_of_gives hp (Plan.gives_createTable hcreate))]
    refine ⟨rfl, ?_⟩
    show (s.database.catalog.put schema.name _).tables.get? schema.name = _
    rw [Catalog.put, SortedMap.get?_insert, if_pos rfl]

/-- **A statement leaves alone what it does not name**, whether it is refused or not. A query, a
creation of what is there and a dropping of what is not leave the whole database. Where a table is
dropped and one of its name created, this one has no rows, and counts from the configured start. -/
theorem execute_frame (s : Session) (st : Statement) :
    (∀ name, (∀ p, s.plan st = .ok p → p.target? ≠ some name) →
        (s.execute st).2.table? name = s.table? name) ∧
      (∀ q, s.plan st = .ok (.query q) → (s.execute st).2.database = s.database) ∧
      (∀ schema, s.plan st = .ok (.createTable schema true) → (s.table? schema.name).isSome →
        (s.execute st).2.database = s.database) ∧
      (∀ name, s.plan st = .ok (.dropTable name true) → s.table? name = none →
        (s.execute st).2.database = s.database) ∧
      ∀ name ifExists answer create schema ifNotExists,
        s.plan st = .ok (.dropTable name ifExists) → (s.execute st).1 = .ok answer →
        (s.execute st).2.plan create = .ok (.createTable schema ifNotExists) →
        schema.name = name →
          (∀ e, schema.validate = .error e → ((s.execute st).2.execute create).1 = .error e ∧
              ((s.execute st).2.execute create).2.table? name = none) ∧
            (schema.validate = .ok () →
              ((s.execute st).2.execute create).1 = .ok (.created name) ∧
                ((s.execute st).2.execute create).2.table? name =
                  some (.new schema s.database.options.autoincrementStart)) := by
  refine ⟨fun name h => table?_of_execute h, fun q h => execute_query h,
    fun schema h hs => execute_createExisting h hs, fun name h hname => execute_dropMissing h hname,
    ?_⟩
  rintro _ ifExists answer create schema ifNotExists hdrop hanswer hcreate rfl
  have hnew := execute_createNew hcreate (table?_of_dropped hdrop hanswer)
  rwa [options_execute] at hnew

/-- A session with two tables, where rows are numbered from 7. -/
def twoTables : Session :=
  ((new ⟨7, true⟩ ⟨0, []⟩).run [⟨"CREATE TABLE t (id INT AUTOINCREMENT, a INT)", []⟩,
    ⟨"CREATE TABLE u (b INT)", []⟩, ⟨"INSERT INTO t (a) VALUES (1), (2)", []⟩]).2

/-- The rows of both tables that agree, counted. -/
def countBoth : Query :=
  .aggregate (.filter (.join (.scan "t") (.scan "u")
    (some (.compare .equal (.field ⟨some "t", "a"⟩) (.field ⟨some "u", "b"⟩))) false)
      (.constant (.integer 1))) [⟨.count, none⟩]

/-- One column, in the place of the two. -/
def renumbered : Schema := ⟨"t", [⟨"c", .integer, true, true, false, none, false⟩]⟩

/-- Rows go into one table, both are queried, none is created or dropped, and one is replaced by a
table with another column. -/
theorem execute_frame_twoTables :
    (twoTables.execute ⟨"INSERT INTO u VALUES (1)", []⟩).2.table? "t" = twoTables.table? "t" ∧
      (twoTables.execute ⟨"SELECT COUNT(*) FROM t JOIN u ON t.a = u.b", []⟩).2.database =
        twoTables.database ∧
      (twoTables.execute ⟨"CREATE TABLE IF NOT EXISTS t (c INT AUTOINCREMENT)", []⟩).2.database =
        twoTables.database ∧
      (twoTables.execute ⟨"DROP TABLE IF EXISTS v", []⟩).2.database = twoTables.database ∧
      ((twoTables.execute ⟨"DROP TABLE t", []⟩).2.execute
        ⟨"CREATE TABLE t (c INT AUTOINCREMENT)", []⟩).2.table? "t" =
          some (.new renumbered 7) := by
  have hoptions : twoTables.database.options = ⟨7, true⟩ := options_run _ _
  have hplan (st : Statement) : twoTables.plan st = Plan.ofText st.sql st.arguments true := by
    rw [plan, hoptions]
  have hinsert : (twoTables.plan ⟨"INSERT INTO u VALUES (1)", []⟩).map Plan.target? =
      .ok (some "u") := by
    rw [hplan]
    decide +kernel
  have hcreate : twoTables.plan ⟨"CREATE TABLE IF NOT EXISTS t (c INT AUTOINCREMENT)", []⟩ =
      .ok (.createTable renumbered true) := (hplan _).trans (by decide +kernel)
  have hmissing : twoTables.table? "v" = none :=
    Option.isNone_iff_eq_none.1 (by decide +kernel)
  have hdropped : (twoTables.execute ⟨"DROP TABLE t", []⟩).1 = .ok (.dropped "t") := by
    decide +kernel
  have hagain : (twoTables.execute ⟨"DROP TABLE t", []⟩).2.plan
      ⟨"CREATE TABLE t (c INT AUTOINCREMENT)", []⟩ = .ok (.createTable renumbered false) := by
    rw [plan, options_execute, hoptions]
    decide +kernel
  have hreplaced := ((execute_frame _ _).2.2.2.2 "t" false _ _ renumbered false
    ((hplan _).trans (by decide +kernel)) hdropped hagain rfl).2 (by decide +kernel)
  rw [hoptions] at hreplaced
  refine ⟨(execute_frame _ _).1 "t" fun p hp => ?_,
    (execute_frame _ _).2.1 countBoth ((hplan _).trans (by decide +kernel)),
    (execute_frame _ _).2.2.1 renumbered hcreate (by decide +kernel),
    (execute_frame _ _).2.2.2.1 "v" ((hplan _).trans (by decide +kernel)) hmissing, hreplaced.2⟩
  rw [hp] at hinsert
  rw [Except.ok.inj hinsert]
  decide

end Session
end MiniSql
