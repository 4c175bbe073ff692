/-
# No `WHERE` means all rows

A `SELECT`, `UPDATE` or `DELETE` without a `WHERE` does what it does with `WHERE 1 = 1`, `WHERE 1`
or `WHERE TRUE`, wherever one of them is added and read as its `WHERE` (`Session.execute_allRows`).
In every session both have the same answer, also where it is an error, and leave the same session.

Nothing is asked of the rest of the statement: the `WHERE` that is added filters the joined rows
before they are sorted, cut to a page or aggregated, and lets all of them through.
-/

import MiniSql.Proofs.Concur
import MiniSql.Proofs.Plan.Refiltered

namespace MiniSql

open Timed
open Grammar (Tree Token Kind NoWhere SaysAll Refiltered)

namespace Planning

variable {u : List Token} {p : Tree}

/-- The number 1 is a constant. -/
theorem value_one (arguments : List Value) :
    value arguments (.leaf .number "1") = .ok (.constant (.integer 1)) := by
  have hone : number "1" = .ok (.integer 1) := by decide
  show (do return Expression.constant (← number "1")) = _
  rw [hone]
  rfl

/-- What says that all rows are meant holds of every row. -/
theorem predicate_saysAll (h : SaysAll u p) (arguments : List Value) :
    ∃ e, predicate arguments p = .ok e ∧ e.holds = fun _ _ => pure true := by
  cases h with
  | one => exact ⟨_, value_one arguments, rfl⟩
  | true => exact ⟨.constant (.boolean true), rfl, rfl⟩
  | equal =>
    refine ⟨.compare .equal (.constant (.integer 1)) (.constant (.integer 1)), ?_, rfl⟩
    show (do
      let l ← value arguments (.leaf .number "1")
      let r ← value arguments (.leaf .number "1")
      return Expression.compare .equal l r) = _
    rw [value_one]
    rfl

end Planning

/-- What says that all rows are meant has no placeholders. -/
theorem Arguments.placeholders_saysAll {u : List Token} {p : Tree} (h : SaysAll u p) :
    placeholders p = [] := by
  cases h <;> rfl

namespace Plan

variable {text : String} {arguments : List Value} {strict : Bool} {t : Tree}

/-- A text that is read is planned by its tree, if the arguments fit. -/
theorem ofText_of_parse (h : Grammar.parse text = .ok t) : ofText text arguments strict = (do
    Arguments.check t arguments.length strict
    Planning.statement arguments t) := by
  rw [ofText, h]
  rfl

end Plan

namespace Session

variable {text text' : String} {t t' : Tree} {before u after : List Token} {w : Token} {p p' : Tree}
  {s : Session} {arguments : List Value} {e e' : Expression}

/-- Texts that differ in their predicates, which hold alike, are carried out alike. -/
theorem execute_refiltered (ht : Grammar.parse text = .ok t) (ht' : Grammar.parse text' = .ok t')
    (h : Refiltered p p' t t') (hp : Planning.predicate arguments p = .ok e)
    (hp' : Planning.predicate arguments p' = .ok e') (hholds : e.holds = e'.holds)
    (hnone : Arguments.placeholders p = []) (hnone' : Arguments.placeholders p' = []) :
    s.execute ⟨text, arguments⟩ = s.execute ⟨text', arguments⟩ := by
  have hplan : s.plan ⟨text, arguments⟩ = (do
      Arguments.check t arguments.length s.database.options.strictParams
      Planning.statement arguments t) := Plan.ofText_of_parse ht
  have hplan' : s.plan ⟨text', arguments⟩ = (do
      Arguments.check t arguments.length s.database.options.strictParams
      Planning.statement arguments t') := by
    rw [Arguments.check_refiltered h hnone hnone']
    exact Plan.ofText_of_parse ht'
  cases hcheck : Arguments.check t arguments.length s.database.options.strictParams with
  | error x =>
    rw [hcheck] at hplan hplan'
    exact execute_congr_faults hplan hplan'
  | ok =>
    rw [hcheck] at hplan hplan'
    rcases Planning.statement_refiltered h hp hp' hholds with
      ⟨x, hx, hx'⟩ | ⟨q, q', hq, hq', hruns⟩
    · exact execute_congr_faults (hplan.trans hx) (hplan'.trans hx')
    · exact execute_congr_runs (hplan.trans hq) (hplan'.trans hq') (hruns s)

/-- **A statement without a `WHERE` means all rows.** What says so can be added as its `WHERE` where
another clause begins and where the statement ends, and nowhere else. Then the statement has the
same answer in every session, at all times, and leaves the same session. -/
theorem execute_allRows (ht : Grammar.parse text = .ok t) (hk : t.kind.isFiltered = true)
    (hno : NoWhere (Grammar.tokenize text)) (htokens : Grammar.tokenize text = before ++ after)
    (hw : w.kind = .keyword .WHERE) (hu : SaysAll u p)
    (htext' : Grammar.Alike (Grammar.tokenize text') (before ++ w :: (u ++ after))) :
    ((∃ t', Grammar.parse text' = .ok t' ∧ Grammar.wheres t'.children = [.word .WHERE [p]]) ↔
        Grammar.Parser.Ends Kind.opensNoClause after ∧ ∀ x ∈ before, x.kind ≠ .semicolon) ∧
      ∀ t', Grammar.parse text' = .ok t' → Grammar.wheres t'.children = [.word .WHERE [p]] →
        ∀ (s : Session) (arguments : List Value),
          s.execute ⟨text', arguments⟩ = s.execute ⟨text, arguments⟩ := by
  have hwhole : Grammar.Whole (before ++ after) t := htokens ▸ Grammar.parse_eq_ok_iff_whole.1 ht
  rw [htokens] at hno
  have hparse (t' : Tree) : Grammar.parse text' = .ok t' ↔
      Grammar.Whole (before ++ w :: (u ++ after)) t' := Grammar.parse_eq_ok_iff_whole.trans
    ⟨Grammar.blind_whole htext'.symm, Grammar.blind_whole htext'⟩
  have hplaces := Grammar.whole_added_iff hwhole hno hk hw hu
  simp only [hparse]
  refine ⟨hplaces, fun t' ht' hread s arguments => ?_⟩
  obtain ⟨hends, hbefore⟩ := hplaces.1 ⟨t', ht', hread⟩
  obtain ⟨t₁, ht₁, hrefiltered⟩ :=
    Grammar.whole_added hwhole hno hk hends hbefore (.mk hw hu.predicate)
  obtain ⟨e, hp', hholds⟩ := Planning.predicate_saysAll hu arguments
  exact (execute_refiltered ht ((hparse t₁).2 ht₁) hrefiltered (Planning.value_one arguments) hp'
    hholds.symm rfl (Arguments.placeholders_saysAll hu)).symm

/-- A query of joined rows, cut to a page. -/
def firstTwo : String := "SELECT a FROM t LEFT JOIN u ON b = c LIMIT 2"

/-- The same query, which says before its page that all rows are meant. -/
def firstTwoOfAll : String := "SELECT a FROM t LEFT JOIN u ON b = c WHERE 1 = 1 LIMIT 2"

/-- What stands before the page. -/
def joinedTables : List Token := Grammar.tokenize "SELECT a FROM t LEFT JOIN u ON b = c"

/-- The page. -/
def firstPage : List Token := [⟨.keyword .LIMIT, "LIMIT", 37⟩, ⟨.number, "2", 43⟩]

/-- The tokens of the text without a condition. -/
theorem tokenize_firstTwo : Grammar.tokenize firstTwo = joinedTables ++ firstPage := by
  decide +kernel

/-- The other text has the same, and its condition. -/
theorem alike_firstTwoOfAll : Grammar.Alike (Grammar.tokenize firstTwoOfAll)
    (joinedTables ++ ⟨.keyword .WHERE, "WHERE", 37⟩ ::
      ([⟨.number, "1", 43⟩, ⟨.equal, "=", 45⟩, ⟨.number, "1", 47⟩] ++ firstPage)) := by
  show List.map _ _ = List.map _ _
  decide +kernel

/-- The `WHERE` that is added is read, and changes nothing. -/
theorem execute_allRows_beforePage :
    (∃ t, Grammar.parse firstTwoOfAll = .ok t ∧ Grammar.wheres t.children =
      [.word .WHERE [⟨.equal, "=", [.leaf .number "1", .leaf .number "1"]⟩]]) ∧
      ∀ (s : Session) (arguments : List Value),
        s.execute ⟨firstTwoOfAll, arguments⟩ = s.execute ⟨firstTwo, arguments⟩ := by
  have hparse : Grammar.parse firstTwo = .ok (.word .SELECT [.leaf .ident "a",
      .word .FROM [.table "t" []],
      .word .JOIN [.word .LEFT [], .table "u" [],
        .word .ON [⟨.equal, "=", [.leaf .ident "b", .leaf .ident "c"]⟩]],
      .implicitWhere, .word .LIMIT [.leaf .number "2"]]) := by
    decide +kernel
  have hno : NoWhere (Grammar.tokenize firstTwo) := by
    rw [tokenize_firstTwo]
    show ∀ t ∈ _, _
    decide +kernel
  obtain ⟨hplaces, hsame⟩ := execute_allRows hparse rfl hno tokenize_firstTwo rfl
    (.equal ⟨rfl, rfl⟩ ⟨rfl, rfl⟩ ⟨rfl, rfl⟩) alike_firstTwoOfAll
  have hends : Grammar.Parser.Ends Kind.opensNoClause firstPage := Grammar.Parser.ends_cons.2 rfl
  obtain ⟨t, ht, hread⟩ := hplaces.2 ⟨hends, by decide +kernel⟩
  exact ⟨⟨t, ht, hread⟩, hsame t ht hread⟩

end Session
end MiniSql
