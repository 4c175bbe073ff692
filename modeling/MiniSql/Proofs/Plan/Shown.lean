/-
# What a `SELECT` shows

A `SELECT` is planned as showing items of the rows that it reads, or the values of functions for
them (`Plan.shows_of_ofText`). What is skipped and cut off is what it reads in the first case, and
what it shows in the second.
-/

import MiniSql.Proofs.Plan.Select
import MiniSql.Proofs.Query.Names

namespace MiniSql
namespace Planning

variable {arguments : List Value} {t : Grammar.Tree} {q : Query} {d : Draft}

/-- A draft with tables makes a query that shows columns. -/
theorem Draft.query_shows (hd : d.Tabular) (h : d.query = .ok q) : q.Shows := by
  unfold query at h
  split at h
  · cases h
  · rename_i source hsource
    have htabular := hd source hsource
    dsimp only at h
    split at h
    · cases h
      refine .projection ?_ _
      split <;> split <;> split <;> split <;>
        repeat first | exact htabular | constructor
    · split at h
      · cases h
        split <;> split <;> split <;>
          repeat first | exact htabular | constructor
      · cases h

/-- A selection is planned as a query that shows columns. -/
theorem shows_of_select (h : select arguments t = .ok (.query q)) : q.Shows := by
  obtain ⟨d, hd, h⟩ := Except.bind_eq_ok.1 h
  obtain ⟨q', hq, h⟩ := Except.bind_eq_ok.1 h
  cases h
  exact Draft.query_shows ((Draft.grows_addAll hd).tabular fun _ h => nomatch h) hq

/-- Only a `SELECT` is planned as a query. -/
theorem shows_of_statement (h : statement arguments t = .ok (.query q)) : q.Shows := by
  simp only [statement, insert, update, delete, create] at h
  split at h
  · exact shows_of_select h
  all_goals
    repeat' first | split at h | obtain ⟨_, -, h⟩ := Except.bind_eq_ok.1 h | cases h

end Planning

/-- **Every query of a text shows** what it reads. -/
theorem Plan.shows_of_ofText {sql : String} {arguments : List Value} {strict : Bool} {q : Query}
    (h : ofText sql arguments strict = .ok (.query q)) : q.Shows := by
  unfold ofText at h
  split at h
  · cases h
  · obtain ⟨_, -, h⟩ := Except.bind_eq_ok.1 h
    exact Planning.shows_of_statement h

end MiniSql
