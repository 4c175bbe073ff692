/-
# References that are right and wrong

A reference stands in a scope: the columns of the tables that are side by side where it is resolved.
It is right there if it takes one column, those included that it confuses (`ColumnRef.Right`), and
wrong if it takes none or several (`ColumnRef.Wrong`). Which of these it is says what it is resolved
to, in labels that have no rows under them.
-/

import MiniSql.Proofs.Refused
import MiniSql.Proofs.Reference.Resolve

namespace MiniSql

/-- The columns of some tables side by side, each with the name of its table. -/
abbrev Scope : Type := List (String × String)

/-- The labels of the columns. -/
def Scope.labels (scope : Scope) : List String := scope.map fun pair => label pair.1 pair.2

/-- The columns of some schemas are under their labels. -/
theorem Scope.labels_pairs (schemas : List Schema) :
    Scope.labels (schemas.flatMap Schema.pairs) = schemas.flatMap Schema.labels :=
  (Schema.flatMap_labels schemas).symm

/-- The labels of a schema are those of its pairs. -/
theorem Schema.labels_pairs (s : Schema) : Scope.labels s.pairs = s.labels := by
  rw [Scope.labels, pairs, List.map_map]
  rfl

/-- The labels of two scopes follow each other. -/
theorem Scope.labels_append (a b : Scope) : Scope.labels (a ++ b) = a.labels ++ b.labels :=
  List.map_append

namespace ColumnRef

variable {c : ColumnRef} {scope : Scope} {x : Error}

/-- The reference takes the column: it means it, or confuses it. -/
def Takes (c : ColumnRef) (pair : String × String) : Prop := c.Means pair ∨ c.Confuses pair

/-- The reference takes one column. -/
def Right (c : ColumnRef) (scope : Scope) : Prop := ∃ i, Only c.Takes scope i

/-- The reference takes no column, or several, and this is the error that says so. -/
inductive Wrong (c : ColumnRef) (scope : Scope) : Error → Prop
  | missing (h : ∀ pair ∈ scope, ¬c.Takes pair) : c.Wrong scope (.schema (.noColumn c))
  | ambiguous (h : Several c.Takes scope) : c.Wrong scope (.schema (.ambiguous c))

/-- A column that is wrong is not right. -/
theorem Wrong.not_right (h : c.Wrong scope x) : ¬c.Right scope := by
  rintro ⟨i, hi⟩
  cases h with
  | missing h =>
    obtain ⟨pair, hmem, htakes⟩ := hi.exists_mem
    exact h pair hmem htakes
  | ambiguous h => exact hi.not_several h

/-- The answer to a reference tells of the columns that it takes. -/
theorem resolve_tells_takes (c : ColumnRef) (scope : Scope) :
    c.Tells c.Takes scope (c.resolve scope.labels) :=
  (resolve_tells_covers c (fun pair => label pair.1 pair.2) scope).congr fun _ _ => covers_label_iff

/-- A column is found exactly if it is right. -/
theorem resolve_ok_iff : (∃ i, c.resolve scope.labels = .ok i) ↔ c.Right scope :=
  exists_congr fun i => (c.resolve_tells_takes scope).found i

/-- A reference is right, or it is wrong. -/
theorem right_or_wrong (c : ColumnRef) (scope : Scope) : c.Right scope ∨ ∃ x, c.Wrong scope x := by
  rcases only_or_several_or_none c.Takes scope with honly | hseveral | hnone
  · exact .inl honly
  · exact .inr ⟨_, .ambiguous hseveral⟩
  · exact .inr ⟨_, .missing hnone⟩

/-- A column is refused exactly if it is wrong. -/
theorem resolve_error_iff : c.resolve scope.labels = .error x ↔ c.Wrong scope x := by
  have htells := c.resolve_tells_takes scope
  constructor
  · intro h
    rcases c.right_or_wrong scope with ⟨i, hi⟩ | ⟨x', hx'⟩
    · rw [(htells.found i).2 hi] at h
      cases h
    · cases hx' with
      | missing hnone =>
        rw [htells.missing.2 hnone] at h
        cases h
        exact .missing hnone
      | ambiguous hseveral =>
        rw [htells.ambiguous.2 hseveral] at h
        cases h
        exact .ambiguous hseveral
  · rintro (hnone | hseveral)
    · exact htells.missing.2 hnone
    · exact htells.ambiguous.2 hseveral

end ColumnRef
end MiniSql
