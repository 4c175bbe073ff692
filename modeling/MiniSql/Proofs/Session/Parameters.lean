/-
# Errors of the parameters

Whether the arguments of a statement fit its placeholders is decided before anything else, and once
and for all. A statement is refused with an error of the parameters exactly if they do not fit
(`Session.execute_parameters`), whatever else is wrong with it, and whatever the database holds.
Where they fit, a placeholder `$k` stands for the argument `k`, and nothing but this value is asked
of it: the plan is that of any tree that has something of this value in the place of each
placeholder.

| step | may be refused for its parameters |
| --- | --- |
| the check of the arguments | yes |
| planning, after the check | no, as each placeholder has its argument |
| locking and running the plan | no, as a plan has no placeholders |
-/

import MiniSql.Proofs.Plan.Binding
import MiniSql.Proofs.Session.Refused

namespace MiniSql

open Grammar (Tree Kind)

variable {sql : String} {t : Tree} {arguments : List Value} {n : Nat} {strict : Bool}

namespace Planning

open Arguments (Numbered Unfit Each Answered CountTo placeholders numberOf validIndex?)

/-- A placeholder stands for its argument. -/
theorem value_placeholder {lexeme : String} {v : Value}
    (h : Arguments.argument arguments lexeme = .ok v) :
    value arguments (.leaf .placeholder lexeme) = .ok (.constant v) := by
  show (Arguments.argument arguments lexeme >>= fun v => Except.ok (Expression.constant v)) = _
  rw [h]
  rfl

/-- A text whose placeholders have their arguments is not refused for its parameters. -/
theorem statement_ne_parameter (ht : Grammar.parse sql = .ok t) (hn : Numbered t n)
    (hgiven : n ≤ arguments.length) (cause : ParameterError) :
    statement arguments t ≠ .error (.parameter cause) := by
  obtain ⟨_, _, -, hu, -⟩ := Grammar.spells_of_parse ht
  have hanswered : Each (Answered (fun _ => False) arguments) [t] := by
    intro lexeme hlexeme
    obtain ⟨k, v, -, -, hargument⟩ := hn.argument hgiven (by simpa using hlexeme)
    rw [Answered, hargument]
    exact .ok v
  intro h
  rcases statement_within hu hanswered _ h with _ | ⟨⟨⟩⟩

/-- The check comes first. -/
theorem ofTrees_eq (t : Tree) (arguments : List Value) (strict : Bool) :
    Plan.ofTrees [t] arguments strict =
      (Arguments.check t arguments.length strict >>= fun _ => statement arguments t) := rfl

/-- A text is refused for its parameters where the check refuses it, and nowhere else. -/
theorem ofTrees_parameter_iff (ht : Grammar.parse sql = .ok t) :
    (∃ cause, Plan.ofTrees [t] arguments strict = .error (.parameter cause)) ↔
      Unfit t arguments.length strict := by
  have hcarries := Arguments.carries_of_mem_placeholders ht
  rw [← not_iff_not, ← Arguments.check_eq_ok_iff_not_unfit hcarries, ofTrees_eq]
  cases hcheck : Arguments.check t arguments.length strict with
  | error e =>
    obtain ⟨cause, rfl⟩ := Arguments.check_within t arguments.length strict e hcheck
    exact ⟨fun h => absurd ⟨cause, rfl⟩ h, fun h => nomatch h⟩
  | ok _ =>
    obtain ⟨n, hn, hle, -⟩ := Arguments.check_eq_ok_iff.1 hcheck
    exact ⟨fun _ => rfl, fun _ ⟨cause, h⟩ => statement_ne_parameter ht hn hle cause h⟩

end Planning

namespace Session

open Arguments (Unfit placeholders numberOf)
open Planning (value statement)

/-- A text that is parsed has the plan of its tree. -/
theorem plan_of_parse (ht : Grammar.parse sql = .ok t) (s : Session) :
    s.plan ⟨sql, arguments⟩ = Plan.ofTrees [t] arguments s.database.options.strictParams := by
  unfold plan Plan.ofText
  rw [ht]

/-- **The check of the arguments is exact, and first.** A statement is refused for its parameters
exactly if its arguments do not fit its placeholders, whatever else is wrong with it and in whatever
session. Where they fit, its plan has the argument `k` in the place of each placeholder `$k`. -/
theorem execute_parameters (ht : Grammar.parse sql = .ok t) (arguments : List Value) :
    (∀ strict, (∃ cause, Plan.ofTrees [t] arguments strict = .error (.parameter cause)) ↔
        Unfit t arguments.length strict) ∧
      (∀ strict, Unfit t arguments.length strict → ∃ cause, ∀ t' : Tree,
        placeholders t' = placeholders t →
          Plan.ofTrees [t'] arguments strict = .error (.parameter cause)) ∧
      (∀ s : Session, (∃ cause, (s.execute ⟨sql, arguments⟩).1 = .error (.parameter cause)) ↔
        Unfit t arguments.length s.database.options.strictParams) ∧
      ∀ strict, ¬Unfit t arguments.length strict →
        Plan.ofTrees [t] arguments strict = statement arguments t ∧
        (∀ lexeme ∈ placeholders t, ∃ v, arguments[numberOf lexeme - 1]? = some v ∧
          value arguments (.leaf .placeholder lexeme) = .ok (.constant v)) ∧
        ∀ (arguments' : List Value) (σ : Tree → Tree),
          (∀ lexeme ∈ placeholders t, ∃ v, arguments[numberOf lexeme - 1]? = some v ∧
            value arguments' (σ (.leaf .placeholder lexeme)) = .ok (.constant v)) →
          statement arguments' (t.replace σ) = statement arguments t := by
  have hcarries := Arguments.carries_of_mem_placeholders ht
  refine ⟨fun strict => Planning.ofTrees_parameter_iff ht, fun strict hunfit => ?_, fun s => ?_,
    fun strict hfit => ?_⟩
  · -- The check looks at the placeholders only.
    cases hcheck : Arguments.check t arguments.length strict with
    | ok _ => exact absurd hunfit ((Arguments.check_eq_ok_iff_not_unfit hcarries).1 hcheck)
    | error e =>
      obtain ⟨cause, rfl⟩ := Arguments.check_within t arguments.length strict e hcheck
      refine ⟨cause, fun t' hsame => ?_⟩
      have hcheck' : Arguments.check t' arguments.length strict = .error (.parameter cause) := by
        rw [← hcheck]
        unfold Arguments.check
        rw [hsame]
      rw [Planning.ofTrees_eq, hcheck']
      rfl
  · rw [← Planning.ofTrees_parameter_iff ht, ← s.plan_of_parse ht]
    constructor
    · rintro ⟨cause, h⟩
      -- A plan is not refused for a parameter any more.
      rcases error_cases h with hplan | ⟨p, -, ⟨_, hcause⟩ | hrows⟩
      · exact ⟨cause, hplan⟩
      · cases hcause
      · exact absurd hrows Error.OfRows.ne_parameter
    · rintro ⟨cause, hplan⟩
      exact ⟨cause, congrArg (·.1) (execute_eq (Database.execute_of_fault hplan))⟩
  · have hcheck := (Arguments.check_eq_ok_iff_not_unfit hcarries).2 hfit
    obtain ⟨n, hn, hle, -⟩ := Arguments.check_eq_ok_iff.1 hcheck
    have hvalue : ∀ lexeme ∈ placeholders t, ∃ v, arguments[numberOf lexeme - 1]? = some v ∧
        value arguments (.leaf .placeholder lexeme) = .ok (.constant v) := by
      intro lexeme hlexeme
      obtain ⟨k, v, hk, hget, hargument⟩ := hn.argument hle hlexeme
      rw [Arguments.validIndex?_of_carries (hcarries lexeme hlexeme)] at hk
      split at hk <;> cases hk
      exact ⟨v, hget, Planning.value_placeholder hargument⟩
    refine ⟨by rw [Planning.ofTrees_eq, hcheck]; rfl, hvalue, fun arguments' σ hσ => ?_⟩
    obtain ⟨_, _, -, hu, -⟩ := Grammar.spells_of_parse ht
    refine Planning.statement_replace hu fun lexeme hlexeme => ?_
    obtain ⟨v, hget, hv⟩ := hvalue lexeme (by simpa using hlexeme)
    obtain ⟨v', hget', hv'⟩ := hσ lexeme (by simpa using hlexeme)
    rw [hget] at hget'
    cases hget'
    exact hv'.trans hv.symm

/-- An `UPDATE` with three placeholders for two arguments, and something to put in their places. -/
def updateThree (first second third : Tree) : Tree :=
  .word .UPDATE [.table "t" [], .word .SET [⟨.equal, "=", [.leaf .ident "a", first]⟩],
    .word .WHERE [.word .AND [⟨.equal, "=", [.leaf .ident "b", second]⟩,
      ⟨.less, "<", [third, .leaf .ident "a"]⟩]]]

/-- One argument is too few for it, in every session. With two its plan is that of the tree that has
the literals 5 and `NULL` in their places. -/
theorem execute_parameters_updateThree :
    (∀ s : Session, ∃ cause,
      (s.execute ⟨"UPDATE t SET a = $2 WHERE b = $01 AND $1 < a", [.integer 5]⟩).1 =
        .error (.parameter cause)) ∧
      Plan.ofText "UPDATE t SET a = $2 WHERE b = $01 AND $1 < a" [.integer 5, .null] true =
        statement [] (updateThree (.word .NULL []) (.leaf .number "5") (.leaf .number "5")) := by
  have ht : Grammar.parse "UPDATE t SET a = $2 WHERE b = $01 AND $1 < a" =
      .ok (updateThree (.leaf .placeholder "$2") (.leaf .placeholder "$01")
        (.leaf .placeholder "$1")) := by decide +kernel
  have hcheck (given : Nat) (strict : Bool) : Arguments.check (updateThree (.leaf .placeholder "$2")
      (.leaf .placeholder "$01") (.leaf .placeholder "$1")) given strict = .ok () ↔ _ :=
    Arguments.check_eq_ok_iff_not_unfit (Arguments.carries_of_mem_placeholders ht)
  refine ⟨fun s => ?_, ?_⟩
  · refine ((execute_parameters ht [.integer 5]).2.2.1 s).2 (Classical.not_not.1 fun hfit => ?_)
    refine absurd ((hcheck 1 _).2 hfit) ?_
    cases s.database.options.strictParams <;> decide +kernel
  · have hfit := (hcheck 2 true).1 (by decide +kernel)
    obtain ⟨hplan, -, hreplace⟩ := (execute_parameters ht [.integer 5, .null]).2.2.2 true hfit
    -- The literal of an argument stands in the place of its placeholders.
    have hliterals := hreplace []
      (fun p => if p.lexeme = "$2" then .word .NULL [] else .leaf .number "5") ?_
    · rw [Plan.ofText, ht]
      exact hplan.trans hliterals.symm
    · have hplaceholders : placeholders (updateThree (.leaf .placeholder "$2")
          (.leaf .placeholder "$01") (.leaf .placeholder "$1")) = ["$2", "$01", "$1"] := by
        decide +kernel
      rw [hplaceholders]
      simp only [List.forall_mem_cons]
      exact ⟨⟨.null, by decide +kernel, rfl⟩, ⟨.integer 5, by decide +kernel, by decide +kernel⟩,
        ⟨.integer 5, by decide +kernel, by decide +kernel⟩, by simp⟩

end Session
end MiniSql
