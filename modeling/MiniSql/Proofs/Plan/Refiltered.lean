/-
# One statement with another `WHERE`

A plan asks its predicate whether it holds of a row, and nothing else. So where two predicates hold
of the same rows, at all times, trees that have them in their `WHERE`s are refused for the same
reason, or have plans that run alike (`Planning.statement_refiltered`).

| statement | asks its predicate |
| --- | --- |
| `SELECT` | in one filter, behind its joins and before everything else |
| `UPDATE` | of every row that it may change |
| `DELETE` | of every row that it may delete |
-/

import MiniSql.Proofs.Grammar.AddedWhere
import MiniSql.Proofs.Session.Joined

namespace MiniSql

open Timed
open Grammar (Tree Refiltered)

/-! ## Tables -/

namespace Mutation

variable {e e' : Expression} {r : Relation} {assignments : List (String × Expression)}

/-- Predicates that hold alike match the same rows. -/
theorem matching_congr (h : e.holds = e'.holds) (s : Schema) (entries : List (Nat × Row)) :
    matching s e entries = matching s e' entries := by
  induction entries with
  | nil => rfl
  | cons entry entries ih => rw [matching, matching, h, ih]

/-- Predicates that hold alike change the same rows. -/
theorem changes_congr (h : e.holds = e'.holds) (s : Schema) (assigned : List (Nat × Expression))
    (entries : List (Nat × Row)) :
    changes s e assigned entries = changes s e' assigned entries := by
  induction entries with
  | nil => rfl
  | cons entry entries ih => simp only [changes, h, ih]

/-- Predicates that hold alike delete the same rows. -/
theorem delete_congr (h : e.holds = e'.holds) : delete r e = delete r e' := by
  rw [delete, delete, matching_congr h]

/-- Predicates that hold alike update the same rows. -/
theorem update_congr (h : e.holds = e'.holds) :
    update r e assignments = update r e' assignments := by
  simp only [update, changes_congr h]

end Mutation

namespace Plan

variable {e e' : Expression} {name : String} {assigned : List (String × Expression)}
  {start : Int64} {c : Catalog}

/-- A deletion is carried out alike by predicates that hold alike. -/
theorem run_delete_congr (h : e.holds = e'.holds) :
    (delete name e).run start c = (delete name e').run start c := by
  simp only [run, carryOut, locks, Mutation.delete_congr h]

/-- An update is carried out alike by predicates that hold alike. -/
theorem run_update_congr (h : e.holds = e'.holds) :
    (update name e assigned).run start c = (update name e' assigned).run start c := by
  simp only [run, carryOut, locks, Mutation.update_congr h]

end Plan

/-! ## Queries -/

/-- A query filters alike by predicates that hold alike. -/
theorem Query.run_filter_congr {e e' : Expression} (h : e.holds = e'.holds) (source : Query)
    (table : String → Except Error Relation) :
    (filter source e).run table = (filter source e').run table := by
  simp only [run, Rowset.filter, h]

/-- A session reads alike by predicates that hold alike. -/
theorem Session.read_filter_congr {e e' : Expression} (h : e.holds = e'.holds) (s : Session)
    (source : Query) : s.read (.filter source e) = s.read (.filter source e') := by
  have hlocks : (Plan.query (.filter source e)).locks =
      (Plan.query (.filter source e')).locks := rfl
  simp only [read, hlocks, Query.run_filter_congr h]

namespace Planning

variable {arguments : List Value} {e e' : Expression} {d : Draft} {t t' p p' : Tree}
  {ts others : List Tree}

/-- The draft with a predicate. -/
def Draft.filtered (d : Draft) (e : Expression) : Draft := { d with predicate := some e }

/-- The steps of a query are the same whichever of the two its filter asks. -/
theorem Draft.query_congr (h : e.holds = e'.holds) (d : Draft) :
    (∃ x, (d.filtered e).query = .error x ∧ (d.filtered e').query = .error x) ∨
      ∃ q q', (d.filtered e).query = .ok q ∧ (d.filtered e').query = .ok q' ∧
        ∀ s : Session, s.read q = s.read q' := by
  cases hsource : d.source with
  | none =>
    have hnone (e : Expression) :
        (d.filtered e).query = .error (.internal .selectWithoutFrom) := by
      simp only [Draft.query, Draft.filtered, hsource]
    exact .inl ⟨_, hnone e, hnone e'⟩
  | some source =>
    have honto (e : Expression) : (d.filtered e).query = (d.onto (.filter source e)).query := by
      simp only [Draft.query, Draft.filtered, Draft.onto, hsource]
      rfl
    rw [honto, honto]
    rcases Session.exists_shows d with ⟨x, hx⟩ | ⟨f, hf⟩
    · exact .inl ⟨x, hx _, hx _⟩
    · obtain ⟨q, hq, hread⟩ := hf (.filter source e)
      obtain ⟨q', hq', hread'⟩ := hf (.filter source e')
      refine .inr ⟨q, q', hq, hq', fun s => ?_⟩
      rw [hread, hread', Session.read_filter_congr h]

/-- A filter may be put on before the clauses behind it. -/
theorem Draft.foldl_behind_filtered (e : Expression) (d : Draft) (ts : List Tree) :
    ts.foldl behind (d.filtered e) = (ts.foldl behind d).filtered e := by
  induction ts generalizing d with
  | nil => rfl
  | cons t ts ih => exact ih (d.behind t)

/-- The plan of a query filters by its `WHERE`. -/
theorem select_filtered (hothers : ∀ t ∈ others, ∃ u, Grammar.Spells.Clause u t)
    (hp : predicate arguments p = .ok e) :
    select arguments (.word .SELECT (ts ++ .word .WHERE [p] :: others)) = (do
      let d ← ts.foldlM (Draft.add arguments) {}
      .query <$> ((others.foldl Draft.behind d).filtered e).query) := by
  rw [select, Tree.word, List.foldlM_append, bind_assoc]
  refine bind_congr fun d => ?_
  have hadd : d.add arguments (.word .WHERE [p]) = .ok (d.filtered e) := by
    show (do return { d with predicate := some (← predicate arguments p) }) = _
    rw [hp]
    rfl
  rw [List.foldlM_cons, hadd]
  show (others.foldlM (Draft.add arguments) (d.filtered e) >>= _) = _
  rw [Draft.addAll_eq_behind hothers, Draft.foldl_behind_filtered]
  rfl

/-- **Trees with predicates that hold alike** are refused alike, or have plans that run alike. -/
theorem statement_refiltered (ht : Refiltered p p' t t')
    (hp : predicate arguments p = .ok e) (hp' : predicate arguments p' = .ok e')
    (h : e.holds = e'.holds) :
    (∃ x, statement arguments t = .error x ∧ statement arguments t' = .error x) ∨
      ∃ q q' : Plan, statement arguments t = .ok q ∧ statement arguments t' = .ok q' ∧
        ∀ s : Session, q.run s.database.options.autoincrementStart s.database.catalog =
          q'.run s.database.options.autoincrementStart s.database.catalog := by
  cases ht with
  | @select ts others hothers =>
    show (∃ x, select _ _ = .error x ∧ select _ _ = .error x) ∨ ∃ q q', select _ _ = .ok q ∧
      select _ _ = .ok q' ∧ _
    rw [select_filtered hothers hp, select_filtered hothers hp']
    cases ts.foldlM (Draft.add arguments) {} with
    | error x => exact .inl ⟨x, rfl, rfl⟩
    | ok d =>
      rcases Draft.query_congr h (others.foldl Draft.behind d) with
        ⟨x, hx, hx'⟩ | ⟨q, q', hq, hq', hread⟩
      · exact .inl ⟨x, congrArg (Plan.query <$> ·) hx, congrArg (Plan.query <$> ·) hx'⟩
      · refine .inr ⟨.query q, .query q', congrArg (Plan.query <$> ·) hq,
          congrArg (Plan.query <$> ·) hq', fun s => ?_⟩
        rw [Session.run_query, Session.run_query, hread]
  | update name assignments =>
    rw [statement_updateSet, statement_updateSet, hp, hp']
    cases assignments.mapM (assignment arguments) with
    | error x => exact .inl ⟨x, rfl, rfl⟩
    | ok assigned => exact .inr ⟨_, _, rfl, rfl, fun s => Plan.run_update_congr h⟩
  | delete name =>
    rw [statement_deleteFrom, statement_deleteFrom, hp, hp']
    exact .inr ⟨_, _, rfl, rfl, fun s => Plan.run_delete_congr h⟩

end Planning

/-- Where neither predicate has placeholders, both trees have the same. -/
theorem Arguments.check_refiltered {p p' t t' : Tree} (ht : Refiltered p p' t t')
    (hp : placeholders p = []) (hp' : placeholders p' = []) (given : Nat) (strict : Bool) :
    check t given strict = check t' given strict := by
  have hplaceholders : placeholders t = placeholders t' := by
    cases ht with
    | select => simp [hp, hp']
    | update => simp [Tree.updateSet, hp, hp']
    | delete => simp [Tree.deleteFrom, hp, hp']
  exact check_congr hplaceholders given strict

end MiniSql
