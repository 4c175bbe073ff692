/-
# Statements with their parts in another order

The check of the arguments only asks which placeholders a statement has, not where they stand
(`Arguments.concur_check`). So an `UPDATE` whose assignments are rearranged has a plan where the
other one has, with the same assignments rearranged alike (`Plan.rearranged_updateSet`).
-/

import MiniSql.Proofs.Concur
import MiniSql.Proofs.Plan.Binding
import MiniSql.Proofs.Plan.Filtered

namespace MiniSql

open Grammar (Tree)

namespace Arguments

variable {t t' : Tree}

/-- The same numbers without repetition, whatever their order. -/
theorem distinct_perm {indexes indexes' : List Nat} (h : ∀ k, k ∈ indexes' ↔ k ∈ indexes) :
    (distinct indexes').Perm (distinct indexes) := by
  have hnodup (l : List Nat) : (distinct l).Nodup := nodup_distinct List.nodup_nil
  refine (List.perm_ext_iff_of_nodup (hnodup _) (hnodup _)).2 fun k => ?_
  rw [distinct, distinct, mem_distinct, mem_distinct, h k]

/-- The check passes for trees with the same placeholders. -/
theorem check_of_mem_iff (h : ∀ lexeme, lexeme ∈ placeholders t' ↔ lexeme ∈ placeholders t)
    {given : Nat} {strict : Bool} (ht : check t given strict = .ok ()) :
    check t' given strict = .ok () := by
  have hperm : (distinct ((placeholders t').filterMap validIndex?)).Perm
      (distinct ((placeholders t).filterMap validIndex?)) := by
    refine distinct_perm fun k => ?_
    simp only [List.mem_filterMap, h]
  have hhighest : (distinct ((placeholders t').filterMap validIndex?)).foldl max 0 =
      (distinct ((placeholders t).filterMap validIndex?)).foldl max 0 :=
    hperm.foldl_eq' (fun _ _ _ _ _ => Nat.max_right_comm ..) 0
  unfold check at ht ⊢
  dsimp only at ht ⊢
  rw [hperm.length_eq, hhighest]
  split at ht
  · cases ht
  · rename_i hvalid
    have hvalid' : (placeholders t').reverse.find? (fun l => (validIndex? l).isNone) = none := by
      rw [List.find?_eq_none] at hvalid ⊢
      intro lexeme hlexeme
      rw [List.mem_reverse, h, ← List.mem_reverse] at hlexeme
      exact hvalid lexeme hlexeme
    rw [hvalid']
    exact ht

/-- **The check asks which placeholders there are**, not in which order. -/
theorem concur_check (h : (placeholders t').Perm (placeholders t)) (given : Nat) (strict : Bool) :
    Except.Concur (check t' given strict) (check t given strict) := fun _ =>
  ⟨check_of_mem_iff fun _ => h.symm.mem_iff, check_of_mem_iff fun _ => h.mem_iff⟩

end Arguments

namespace Plan

variable {sql sql' name : String} {p : Tree} {arguments : List Value} {strict : Bool}

/-- The plan of `UPDATE name SET assignments WHERE p` is one of these. -/
theorem ofText_updateSet_eq_ok {assignments : List Tree} {plan : Plan}
    (h : Grammar.parse sql = .ok (.updateSet name assignments p)) :
    ofText sql arguments strict = .ok plan ↔ ∃ assigned e,
        Arguments.check (.updateSet name assignments p) arguments.length strict = .ok () ∧
        assignments.mapM (Planning.assignment arguments) = .ok assigned ∧
        Planning.predicate arguments p = .ok e ∧ plan = .update name e assigned := by
  have hplan : ofText sql arguments strict = (do
      Arguments.check (.updateSet name assignments p) arguments.length strict
      let assigned ← assignments.mapM (Planning.assignment arguments)
      return .update name (← Planning.predicate arguments p) assigned) := by
    rw [ofText, h]
    rfl
  rw [hplan]
  simp only [Except.bind_eq_ok, pure, Except.pure, Except.ok.injEq]
  constructor
  · rintro ⟨_, hcheck, assigned, hassigned, e, he, rfl⟩
    exact ⟨assigned, e, hcheck, hassigned, he, rfl⟩
  · rintro ⟨assigned, e, hcheck, hassigned, he, rfl⟩
    exact ⟨(), hcheck, assigned, hassigned, e, he, rfl⟩

/-- **Rearranged assignments** have the plan of the others, with its assignments rearranged. -/
theorem rearranged_updateSet {assignments assignments' : List Tree} {plan : Plan}
    (h : Grammar.parse sql = .ok (.updateSet name assignments p))
    (h' : Grammar.parse sql' = .ok (.updateSet name assignments' p))
    (hperm : assignments'.Perm assignments) (hplan : ofText sql arguments strict = .ok plan) :
    ∃ e assigned assigned', plan = .update name e assigned ∧
      ofText sql' arguments strict = .ok (.update name e assigned') ∧ assigned'.Perm assigned ∧
      assignments.mapM (Planning.assignment arguments) = .ok assigned := by
  obtain ⟨assigned, e, hcheck, hassigned, he, rfl⟩ := (ofText_updateSet_eq_ok h).1 hplan
  obtain ⟨assigned', hassigned', hsame⟩ := Except.mapM_perm hperm hassigned
  have hplaceholders : (Arguments.placeholders (.updateSet name assignments' p)).Perm
      (Arguments.placeholders (.updateSet name assignments p)) := by
    simpa [Grammar.Tree.updateSet] using (hperm.flatMap_right _).append_right _
  refine ⟨e, assigned, assigned', rfl, ?_, hsame, hassigned⟩
  exact (ofText_updateSet_eq_ok h').2 ⟨assigned', e,
    (Arguments.concur_check hplaceholders _ _ _).2 hcheck, hassigned', he, rfl⟩

end Plan
end MiniSql
