/-
# Locks and missing tables

A plan that neither creates nor drops a table locks every table that it names, once, and for writing
just the one that it changes. Which order its tables are named in, and how often, is of no account.
Where one of them is missing the plan is refused before anything else is done: no row is looked at
and the clock is not read. The error names the first of the missing tables in the order of their
bytes, and no plan with all its tables there is refused like this (`Plan.locks_and_missing`).

| plan | locked for writing | locked for reading |
| --- | --- | --- |
| a query | none | the tables that it scans |
| `INSERT`, `UPDATE`, `DELETE`, `TRUNCATE` | the table that it changes | none |
| `CREATE TABLE`, `DROP TABLE` | none | none, not even the one that it names |
-/

import MiniSql.Proofs.Session.Frame
import MiniSql.Proofs.Session.Refused

namespace MiniSql

open Error Timed

/-- The query names a table: one of its sources is a scan of it. -/
inductive Query.Names : Query → String → Prop
  | scan (table : String) : Names (.scan table) table
  | left {left right : Query} {predicate : Option Expression} {outer : Bool} {table : String}
      (h : Names left table) : Names (.join left right predicate outer) table
  | right {left right : Query} {predicate : Option Expression} {outer : Bool} {table : String}
      (h : Names right table) : Names (.join left right predicate outer) table
  | filter {source : Query} {predicate : Expression} {table : String} (h : Names source table) :
      Names (.filter source predicate) table
  | order {source : Query} {keys : List (ColumnRef × Direction)} {table : String}
      (h : Names source table) : Names (.order source keys) table
  | offset {source : Query} {count : Nat} {table : String} (h : Names source table) :
      Names (.offset source count) table
  | limit {source : Query} {count : Nat} {table : String} (h : Names source table) :
      Names (.limit source count) table
  | projection {source : Query} {items : List SelectItem} {table : String}
      (h : Names source table) : Names (.projection source items) table
  | aggregate {source : Query} {calls : List AggregateCall} {table : String}
      (h : Names source table) : Names (.aggregate source calls) table

/-- The tables of a query are those it names. -/
theorem Query.mem_tables_iff {q : Query} {name : String} : name ∈ q.tables ↔ q.Names name := by
  induction q with
  | scan table =>
    rw [tables, List.mem_singleton]
    constructor
    · rintro rfl
      exact .scan name
    · rintro ⟨⟩
      rfl
  | join left right predicate outer ihl ihr =>
    rw [tables, List.mem_append, ihl, ihr]
    constructor
    · rintro (h | h)
      · exact .left h
      · exact .right h
    · rintro (_ | h | h)
      · exact .inl h
      · exact .inr h
  | filter source predicate ih => exact ih.trans ⟨.filter, fun | .filter h => h⟩
  | order source keys ih => exact ih.trans ⟨.order, fun | .order h => h⟩
  | offset source count ih => exact ih.trans ⟨.offset, fun | .offset h => h⟩
  | limit source count ih => exact ih.trans ⟨.limit, fun | .limit h => h⟩
  | projection source items ih => exact ih.trans ⟨.projection, fun | .projection h => h⟩
  | aggregate source calls ih => exact ih.trans ⟨.aggregate, fun | .aggregate h => h⟩

namespace Plan

variable {p p' : Plan} {start : Int64} {c c' : Catalog} {name : String} {t t' : Time.Clock}

/-- The plan creates a table or drops one. -/
def defines : Plan → Bool
  | createTable _ _ => true
  | dropTable _ _ => true
  | truncate _ => false
  | insert _ _ _ _ => false
  | update _ _ _ => false
  | delete _ _ => false
  | query _ => false

/-- The plan names a table: the one that it creates, drops or changes, or one that it scans. -/
def Names (p : Plan) (table : String) : Prop :=
  p.target? = some table ∨ ∃ q, p = query q ∧ q.Names table

/-- The calls that a plan asks for its locks with. -/
def calls : Plan → List (LockMode × String)
  | query q => q.tables.map fun table => (.read, table)
  | p => if p.defines then [] else p.target?.toList.map fun table => (.write, table)

/-- The locks of a plan are those of its calls. -/
theorem locks_eq (p : Plan) : p.locks = LockRequest.ofCalls p.calls := by
  cases p with
  | query q =>
    rw [locks, calls, LockRequest.ofCalls, List.foldl_map]
    rfl
  | _ => rfl

/-- The table asked for writing is the one it aims at. -/
theorem mem_calls_write_iff (hp : p.defines = false) :
    (.write, name) ∈ p.calls ↔ p.target? = some name := by
  cases p <;> simp_all [calls, defines, target?, eq_comm]

/-- The tables asked for are those it names. -/
theorem mem_calls_iff (hp : p.defines = false) :
    (.write, name) ∈ p.calls ∨ (.read, name) ∈ p.calls ↔ p.Names name := by
  cases p <;> simp_all [calls, defines, target?, Names, Query.mem_tables_iff, eq_comm]

/-- A table is locked if the plan names it. -/
theorem mem_locks_iff (hp : p.defines = false) : name ∈ p.locks.keys ↔ p.Names name := by
  rw [SortedMap.mem_keys_iff, locks_eq, LockRequest.get?_ofCalls, ← mem_calls_iff hp]
  split
  · simp [*]
  · split <;> simp [*]

/-- A table is locked for writing if the plan changes it. -/
theorem get?_locks_write_iff (hp : p.defines = false) :
    p.locks.get? name = some .write ↔ p.target? = some name := by
  rw [locks_eq, LockRequest.get?_ofCalls, ← mem_calls_write_iff hp]
  split
  · simp [*]
  · split <;> simp [*]

/-- Plans that name the same tables and change the same one ask for the same locks. -/
theorem locks_congr (hp : p.defines = false) (hp' : p'.defines = false)
    (hnames : ∀ name, p.Names name ↔ p'.Names name) (htarget : p.target? = p'.target?) :
    p.locks = p'.locks := by
  refine SortedMap.ext_get? fun name => ?_
  have hwrite : (.write, name) ∈ p.calls ↔ (.write, name) ∈ p'.calls := by
    rw [mem_calls_write_iff hp, mem_calls_write_iff hp', htarget]
  have hnamed := hnames name
  rw [← mem_calls_iff hp, ← mem_calls_iff hp', hwrite] at hnamed
  rw [locks_eq, locks_eq, LockRequest.get?_ofCalls, LockRequest.get?_ofCalls]
  by_cases h : (.write, name) ∈ p'.calls
  · rw [if_pos h, if_pos (hwrite.2 h)]
  · rw [if_neg h, if_neg (mt hwrite.1 h)]
    simp only [h, false_or] at hnamed
    simp only [hnamed]

/-- The locks of a plan are granted unless a table that it names is missing. -/
theorem grant_eq_error_iff (hp : p.defines = false) {e : Error} :
    c.grant p.locks = .error e ↔
      ∃ name, c.FirstMissing p.Names name ∧ e = .schema (.noTable name) := by
  have hnamed : (fun name => name ∈ p.locks.keys) = p.Names :=
    funext fun _ => propext (mem_locks_iff hp)
  rw [Catalog.grant_eq_error_iff, hnamed]

/-- Where a table is missing there is a first one. -/
theorem exists_firstMissing_iff (hp : p.defines = false) :
    (∃ name, c.FirstMissing p.Names name) ↔ ∃ name, p.Names name ∧ c.has name = false := by
  constructor
  · rintro ⟨name, h⟩
    exact ⟨name, h.named, h.missing⟩
  · rintro ⟨name, hnamed, hmissing⟩
    cases hgrant : c.grant p.locks with
    | error e =>
      obtain ⟨first, hfirst, -⟩ := (grant_eq_error_iff hp).1 hgrant
      exact ⟨first, hfirst⟩
    | ok _ =>
      have hlocked := SortedMap.mem_keys_iff.1 ((mem_locks_iff hp).2 hnamed)
      have hthere := Catalog.has_of_grant hgrant hlocked
      rw [hmissing] at hthere
      cases hthere

/-- A plan that is refused for a missing table has not begun. -/
theorem run_refuses_noTable (hp : p.defines = false)
    (h : Refuses (p.run start c) t (.schema (.noTable name)) t') :
    c.FirstMissing p.Names name ∧ t' = t := by
  rcases refuses_bind.1 h with h | ⟨_, mid, hgrant, h⟩
  · obtain ⟨hgrant, rfl⟩ := refuses_ofExcept.1 h
    obtain ⟨other, hother, heq⟩ := (grant_eq_error_iff hp).1 hgrant
    cases heq
    exact ⟨hother, rfl⟩
  · have hdrop : ∀ table ifExists, p = .dropTable table ifExists →
        OfRows (.schema (.noTable table)) := by
      rintro table ifExists rfl
      cases hp
    exact absurd (carryOut_within (gives_ofExcept.1 hgrant).1 (fun _ he => he) hdrop mid _ t' h)
      OfRows.ne_noTable

/-- A plan is refused for the first of its tables that is missing. -/
theorem run_eq_refuse_iff (hp : p.defines = false) :
    p.run start c = refuse (.schema (.noTable name)) ↔ c.FirstMissing p.Names name := by
  constructor
  · intro h
    have hrefused : Refuses (p.run start c) ⟨0, []⟩ (.schema (.noTable name)) ⟨0, []⟩ := by
      rw [h]
      exact refuses_refuse.2 ⟨rfl, rfl⟩
    exact (run_refuses_noTable hp hrefused).1
  · intro h
    rw [run, (grant_eq_error_iff hp).2 ⟨name, h, rfl⟩]
    rfl

/-- **Locks and missing tables.** The calls that ask for locks count by what they ask for, not by
their order or number. A plan that neither creates nor drops a table locks exactly the tables that it
names, and writes exactly the one that it changes. It is refused for a missing table exactly if it
names one: at once, and for the first of them. -/
theorem locks_and_missing :
    (∀ calls name, (LockRequest.ofCalls calls).get? name =
        if (.write, name) ∈ calls then some .write
        else if (.read, name) ∈ calls then some .read
        else none) ∧
      (∀ calls calls', (∀ call, call ∈ calls ↔ call ∈ calls') →
        LockRequest.ofCalls calls = LockRequest.ofCalls calls') ∧
      ∀ p : Plan, p.defines = false →
        p.locks.keys.Nodup ∧
        (∀ name, name ∈ p.locks.keys ↔ p.Names name) ∧
        (∀ name, p.locks.get? name = some .write ↔ p.target? = some name) ∧
        (∀ p' : Plan, p'.defines = false → (∀ name, p.Names name ↔ p'.Names name) →
          p.target? = p'.target? → p.locks = p'.locks) ∧
        ∀ (start : Int64) (c : Catalog),
          ((∃ name, c.FirstMissing p.Names name) ↔ ∃ name, p.Names name ∧ c.has name = false) ∧
          ∀ name,
            (p.run start c = refuse (.schema (.noTable name)) ↔ c.FirstMissing p.Names name) ∧
            (∀ t t', Refuses (p.run start c) t (.schema (.noTable name)) t' →
              c.FirstMissing p.Names name ∧ t' = t) ∧
            ∀ t t' c', ¬Gives (p.run start c) t (c', .error (.schema (.noTable name))) t' := by
  refine ⟨fun calls _ => LockRequest.get?_ofCalls calls, fun _ _ => LockRequest.ofCalls_congr,
    fun p hp => ⟨p.locks.nodup_keys, fun _ => mem_locks_iff hp, fun _ => get?_locks_write_iff hp,
      fun p' hp' => locks_congr hp hp', fun start c => ⟨exists_firstMissing_iff hp,
        fun name => ⟨run_eq_refuse_iff hp, fun t t' => run_refuses_noTable hp, ?_⟩⟩⟩⟩
  intro t t' c' h
  exact OfRows.ne_noTable (.query (answer_within h _ rfl))

/-- A join of four tables, two of which are one. -/
def joinOfFour : Plan :=
  .query (.join (.join (.scan "z") (.scan "t") none false)
    (.join (.scan "m") (.scan "z") none true) none false)

/-- A table that is read before it is written, and read again, is locked for writing. Where `m` and
`z` are missing a join of both, which names `z` before and behind, is refused for `m`. -/
theorem locks_and_missing_joinOfFour :
    (LockRequest.ofCalls [(.read, "b"), (.write, "b"), (.read, "a"), (.read, "b")]).get? "b" =
        some .write ∧
      joinOfFour.locks.keys.Nodup ∧
      "z" ∈ joinOfFour.locks.keys ∧
      joinOfFour.run 1 Session.twoTables.database.catalog = refuse (.schema (.noTable "m")) := by
  obtain ⟨hcalls, -, hplan⟩ := locks_and_missing
  obtain ⟨hnodup, hkeys, -, -, hrun⟩ := hplan joinOfFour rfl
  have hnames (name : String) : joinOfFour.Names name ↔ name ∈ ["z", "t", "m", "z"] :=
    (mem_locks_iff rfl).symm.trans (by
      rw [SortedMap.mem_keys_iff, joinOfFour, locks, LockRequest.isSome_get?_readAll]
      simp [Query.tables])
  have hthere : Session.twoTables.database.catalog.has "t" = true := by decide +kernel
  have hbehind : ∀ other ∈ ["z", "t", "m", "z"], other = "t" ∨ other = "m" ∨ "m" < other := by
    decide
  refine ⟨(hcalls _ _).trans (by decide), hnodup, (hkeys _).2 ((hnames _).2 (by decide)),
    ((hrun 1 _).2 "m").1.2 ⟨(hnames _).2 (by decide), by decide +kernel, ?_⟩⟩
  intro other hother hnone
  rcases hbehind other ((hnames other).1 hother) with rfl | rfl | hlt
  · rw [hthere] at hnone
    cases hnone
  · exact .inl rfl
  · exact .inr (lt_iff_bytes_lt.1 hlt)

end Plan
end MiniSql
