/-
# Finding the column that a reference means

A reference means the one column whose label it covers. If it covers none the column does not
exist, and if it covers several the reference is ambiguous.
-/

import MiniSql.Error

namespace MiniSql

namespace ColumnRef

/-- The positions of the labels that the reference covers, when the first stands at `start`. -/
def positions (c : ColumnRef) (start : Nat) : List String → List Nat
  | [] => []
  | l :: labels =>
    if c.covers l then start :: positions c (start + 1) labels else positions c (start + 1) labels

/-- The position of the column that the reference means. -/
def resolve (c : ColumnRef) (labels : List String) : Except Error Nat :=
  match c.positions 0 labels with
  | [] => .error (.schema (.noColumn c))
  | [i] => .ok i
  | _ :: _ :: _ => .error (.schema (.ambiguous c))

/-- A position is one whose label the column covers. -/
theorem mem_positions {c : ColumnRef} {start i : Nat} {labels : List String} :
    i ∈ c.positions start labels ↔ start ≤ i ∧ ∃ l, labels[i - start]? = some l ∧ c.covers l := by
  induction labels generalizing start with
  | nil => simp [positions]
  | cons l labels ih =>
    have step : i ∈ c.positions (start + 1) labels ↔
        start + 1 ≤ i ∧ ∃ l', (l :: labels)[i - start]? = some l' ∧ c.covers l' := by
      rw [ih]
      constructor
      · rintro ⟨h, l', hl, hc⟩
        refine ⟨h, l', ?_, hc⟩
        rw [show i - start = i - (start + 1) + 1 by omega, List.getElem?_cons_succ]
        exact hl
      · rintro ⟨h, l', hl, hc⟩
        rw [show i - start = i - (start + 1) + 1 by omega, List.getElem?_cons_succ] at hl
        exact ⟨h, l', hl, hc⟩
    unfold positions
    split
    · rename_i hc
      rw [List.mem_cons, step]
      constructor
      · rintro (rfl | ⟨h, hl⟩)
        · exact ⟨Nat.le_refl _, l, by simp, hc⟩
        · exact ⟨by omega, hl⟩
      · rintro ⟨h, hl⟩
        rcases Nat.eq_or_lt_of_le h with h | h
        · exact .inl h.symm
        · exact .inr ⟨h, hl⟩
    · rename_i hc
      rw [step]
      constructor
      · rintro ⟨h, hl⟩
        exact ⟨by omega, hl⟩
      · rintro ⟨h, l', hl, hc'⟩
        rcases Nat.eq_or_lt_of_le h with h | h
        · subst h
          simp only [Nat.sub_self, List.getElem?_cons_zero, Option.some.injEq] at hl
          subst hl
          exact absurd hc' hc
        · exact ⟨h, l', hl, hc'⟩

/-- A resolved position is that of a label. -/
theorem resolve_lt {c : ColumnRef} {labels : List String} {i : Nat}
    (h : c.resolve labels = .ok i) : i < labels.length := by
  unfold resolve at h
  split at h
  · cases h
  · rename_i j hj
    cases h
    obtain ⟨_, l, hl, _⟩ := mem_positions.1 (hj ▸ List.mem_singleton_self i)
    exact (List.getElem?_eq_some_iff.1 hl).1
  · cases h

end ColumnRef

/-- The table that a label names: what stands before its first full stop. -/
def labelTable (l : String) : String :=
  if l.toList.contains '.' then String.ofList (l.toList.takeWhile (· != '.')) else ""

/-- The column that a label names: what stands behind its first full stop. -/
def labelColumn (l : String) : String :=
  if l.toList.contains '.' then String.ofList ((l.toList.dropWhile (· != '.')).drop 1) else l

end MiniSql
