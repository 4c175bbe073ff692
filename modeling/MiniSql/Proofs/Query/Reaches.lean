/-
# The references that are come to

A reference is resolved where the evaluation comes to it, and not before. A comparison comes to both
of its sides, a connective to its right side only where the left one does not decide
(`Expression.Reaches`). So an expression is refused for a reference exactly if its evaluation comes
to it and it means no column, or several (`Expression.fails_evaluate`).

A pass comes to what stands in its list where it has not been refused before (`Timed.Comes`), and is
refused where something that it comes to is (`Timed.fails_mapM`). One over no rows comes to nothing.
-/

import MiniSql.Proofs.Query.Join
import MiniSql.Proofs.Query.OuterJoin
import MiniSql.Proofs.Query.Refused

namespace MiniSql

open Timed

variable {t now : Time.Clock} {x : Error} {c c' : ColumnRef} {labels : List String} {row : Row}

/-! ## References -/

/-- An error is of one reference only. -/
theorem Error.OfReference.unique (h : x.OfReference c) (h' : x.OfReference c') : c = c' := by
  cases h <;> cases h' <;> rfl

/-- What is not resolved is refused for the reference. -/
theorem ColumnRef.ofReference_of_resolve (h : c.resolve labels = .error x) : x.OfReference c := by
  unfold resolve at h
  split at h
  · cases h
    exact .missing
  · cases h
  · cases h
    exact .ambiguous

/-! ## Expressions -/

namespace Expression

variable {e : Expression} {labels' : List String}

/-- The references of the expression. -/
def columns : Expression → List ColumnRef
  | constant _ => []
  | field c => [c]
  | currentTime => []
  | default => []
  | compare _ left right => left.columns ++ right.columns
  | isNull operand _ => operand.columns
  | and left right => left.columns ++ right.columns
  | or left right => left.columns ++ right.columns

/-- An expression says the same where its columns stand in the same places. -/
theorem evaluate_congr (h : ∀ c ∈ e.columns, c.resolve labels' = c.resolve labels) (row : Row) :
    e.evaluate labels' row = e.evaluate labels row := by
  induction e with
  | constant v => rfl
  | field c => simp only [evaluate, fieldValue, h c List.mem_cons_self]
  | currentTime => rfl
  | default => rfl
  | compare sign left right ihl ihr =>
    obtain ⟨hl, hr⟩ := List.forall_mem_append.1 h
    simp only [evaluate, ihl hl, ihr hr]
  | isNull operand negated ih => simp only [evaluate, ih h]
  | and left right ihl ihr =>
    obtain ⟨hl, hr⟩ := List.forall_mem_append.1 h
    simp only [evaluate, ihl hl, ihr hr]
  | or left right ihl ihr =>
    obtain ⟨hl, hr⟩ := List.forall_mem_append.1 h
    simp only [evaluate, ihl hl, ihr hr]

/-- A predicate holds alike where its columns are the same. -/
theorem holds_congr (h : ∀ c ∈ e.columns, c.resolve labels' = c.resolve labels) :
    e.holds labels' = e.holds labels :=
  funext fun row => by rw [holds, holds, evaluate_congr h row]

/-- The evaluation for the row, started at the time, comes to the reference. -/
inductive Reaches (labels : List String) (row : Row) :
    Expression → Time.Clock → ColumnRef → Prop
  | field (c : ColumnRef) (t : Time.Clock) : Reaches labels row (field c) t c
  | compareLeft {sign : Comparison} {left right : Expression} {t : Time.Clock} {c : ColumnRef}
      (h : Reaches labels row left t c) : Reaches labels row (compare sign left right) t c
  | compareRight {sign : Comparison} {left right : Expression} {t mid : Time.Clock} {v : Value}
      {c : ColumnRef} (hleft : Gives (left.evaluate labels row) t v mid)
      (h : Reaches labels row right mid c) : Reaches labels row (compare sign left right) t c
  | isNull {operand : Expression} {negated : Bool} {t : Time.Clock} {c : ColumnRef}
      (h : Reaches labels row operand t c) : Reaches labels row (isNull operand negated) t c
  | andLeft {left right : Expression} {t : Time.Clock} {c : ColumnRef}
      (h : Reaches labels row left t c) : Reaches labels row (and left right) t c
  | andRight {left right : Expression} {t mid : Time.Clock} {v : Value} {c : ColumnRef}
      (hleft : Gives (left.evaluate labels row) t v mid) (hv : v.isTruthy = true)
      (h : Reaches labels row right mid c) : Reaches labels row (and left right) t c
  | orLeft {left right : Expression} {t : Time.Clock} {c : ColumnRef}
      (h : Reaches labels row left t c) : Reaches labels row (or left right) t c
  | orRight {left right : Expression} {t mid : Time.Clock} {v : Value} {c : ColumnRef}
      (hleft : Gives (left.evaluate labels row) t v mid) (hv : v.isTruthy = false)
      (h : Reaches labels row right mid c) : Reaches labels row (or left right) t c

/-- A column that is reached is one of the expression's. -/
theorem Reaches.mem_columns (h : e.Reaches labels row t c) : c ∈ e.columns := by
  induction h with
  | field c t => exact List.mem_singleton_self c
  | compareLeft _ ih | andLeft _ ih | orLeft _ ih => exact List.mem_append_left _ ih
  | compareRight _ _ ih | andRight _ _ _ ih | orRight _ _ _ ih => exact List.mem_append_right _ ih
  | isNull _ ih => exact ih

/-- **An expression is refused for a reference** if its evaluation comes to it, and it is not
resolved. -/
theorem fails_evaluate (hx : x.OfReference c) : Fails (e.evaluate labels row) t x ↔
    e.Reaches labels row t c ∧ c.resolve labels = .error x := by
  constructor
  · intro h
    -- The second operand is evaluated at the time that the first one leaves.
    induction e generalizing t with
    | constant v => exact absurd h not_fails_pure
    | field c' =>
      rcases Except.bind_eq_error.1 (fails_ofExcept.1 h) with h | ⟨i, -, h⟩
      · obtain rfl := hx.unique (ColumnRef.ofReference_of_resolve h)
        exact ⟨.field c t, h⟩
      · split at h <;> cases h
        cases hx
    | currentTime =>
      rcases fails_bind.1 h with ⟨_, h⟩ | ⟨_, _, -, h⟩
      · exact absurd h not_refuses_now
      · exact absurd h not_fails_pure
    | default =>
      obtain ⟨_, h⟩ := h
      obtain ⟨rfl, -⟩ := refuses_refuse.1 h
      cases hx
    | compare sign left right ihl ihr =>
      rcases fails_bind.1 h with h | ⟨v, mid, hleft, h⟩
      · exact (ihl h).imp_left .compareLeft
      · exact (ihr (fails_bind_pure.1 h)).imp_left (.compareRight hleft)
    | isNull operand negated ih => exact (ih (fails_bind_pure.1 h)).imp_left .isNull
    | and left right ihl ihr =>
      rcases fails_bind.1 h with h | ⟨v, mid, hleft, h⟩
      · exact (ihl h).imp_left .andLeft
      · split at h
        · rename_i hv
          exact (ihr (fails_bind_pure.1 h)).imp_left (.andRight hleft hv)
        · exact absurd h not_fails_pure
    | or left right ihl ihr =>
      rcases fails_bind.1 h with h | ⟨v, mid, hleft, h⟩
      · exact (ihl h).imp_left .orLeft
      · split at h
        · exact absurd h not_fails_pure
        · rename_i hv
          exact (ihr (fails_bind_pure.1 h)).imp_left (.orRight hleft (by simpa using hv))
  · rintro ⟨h, hwrong⟩
    -- On the way that leads to the reference.
    induction h with
    | field c t =>
      refine fails_ofExcept.2 ?_
      rw [fieldValue, hwrong]
      rfl
    | compareLeft _ ih | isNull _ ih | andLeft _ ih | orLeft _ ih =>
      exact fails_bind.2 (.inl (ih hx hwrong))
    | compareRight hleft _ ih =>
      exact fails_bind.2 (.inr ⟨_, _, hleft, fails_bind_pure.2 (ih hx hwrong)⟩)
    | andRight hleft hv _ ih =>
      refine fails_bind.2 (.inr ⟨_, _, hleft, ?_⟩)
      rw [if_pos hv]
      exact fails_bind_pure.2 (ih hx hwrong)
    | orRight hleft hv _ ih =>
      refine fails_bind.2 (.inr ⟨_, _, hleft, ?_⟩)
      rw [if_neg (by simp [hv])]
      exact fails_bind_pure.2 (ih hx hwrong)

/-- A predicate fails exactly where its evaluation does. -/
theorem fails_holds : Fails (e.holds labels row) t x ↔ Fails (e.evaluate labels row) t x := by
  rw [holds, fails_bind]
  simp

end Expression

/-! ## Passes -/

namespace Timed

variable {α β : Type} {f : α → Timed β} {l : List α} {a : α}

/-- The pass that starts at `t` comes to `a` at `now`: it has gone through all that stands before it
in the list. -/
inductive Comes (f : α → Timed β) : List α → Time.Clock → α → Time.Clock → Prop
  | here (a : α) (l : List α) (t : Time.Clock) : Comes f (a :: l) t a t
  | later {a a' : α} {l : List α} {b : β} {t mid now : Time.Clock} (ha : Gives (f a) t b mid)
      (h : Comes f l mid a' now) : Comes f (a :: l) t a' now

/-- An element that a loop comes to is one of the list's. -/
theorem Comes.mem (h : Comes f l t a now) : a ∈ l := by
  induction h with
  | here a l t => exact List.mem_cons_self
  | later _ _ ih => exact List.mem_cons_of_mem _ ih

/-- **A pass is refused** where something that it comes to is. -/
theorem fails_mapM : Fails (l.mapM f) t x ↔ ∃ a now, Comes f l t a now ∧ Fails (f a) now x := by
  induction l generalizing t with
  | nil =>
    rw [List.mapM_nil]
    exact ⟨fun h => absurd h not_fails_pure, fun ⟨_, _, h, _⟩ => nomatch h⟩
  | cons a l ih =>
    simp only [List.mapM_cons, fails_bind, not_fails_pure, and_false, exists_false, or_false, ih]
    constructor
    · rintro (h | ⟨b, mid, ha, a', now, hcomes, h⟩)
      · exact ⟨a, t, .here a l t, h⟩
      · exact ⟨a', now, .later ha hcomes, h⟩
    · rintro ⟨a', now, _ | ⟨ha, hcomes⟩, h⟩
      · exact .inl h
      · exact .inr ⟨_, _, ha, a', now, hcomes, h⟩

end Timed

namespace Rowset

variable {test : Row → Timed Bool} {rows right lefts : List Row}

/-- Testing rows fails exactly at a row that it comes to. -/
theorem fails_keep : Fails (keep test rows) t x ↔
    ∃ row now, Comes test rows t row now ∧ Fails (test row) now x := by
  rw [← fails_mapM]
  induction rows generalizing t with
  | nil =>
    rw [List.mapM_nil]
    exact iff_of_false not_fails_pure not_fails_pure
  | cons row rows ih =>
    simp only [keep, List.mapM_cons, fails_bind, not_fails_pure, and_false, exists_false, or_false,
      ih]

/-- **Filtering** fails exactly at a row that it comes to. -/
theorem fails_filter {s : Rowset} {e : Expression} : Fails (s.filter e) t x ↔
    ∃ row now, Comes (e.holds s.columns) s.rows t row now ∧
      Fails (e.evaluate s.columns row) now x := by
  simp only [filter, fails_bind, not_fails_pure, and_false, exists_false, or_false, fails_keep,
    Expression.fails_holds]

/-- A join comes to the pairs of the product, whether or not it pads. -/
theorem fails_join {l r : Rowset} {p : Option Expression} {outer : Bool} :
    Fails (l.join r p outer) t x ↔ ∃ e row now, p = some e ∧
      Comes (e.holds (l.columns ++ r.columns)) (product l.rows r.rows) t row now ∧
      Fails (e.evaluate (l.columns ++ r.columns) row) now x := by
  have hpairs (padding : Row) (test : Row → Timed Bool) :
      Fails (pairAll test outer padding r.rows l.rows) t x ↔
        Fails (keep test (product l.rows r.rows)) t x := by
    rw [← pairAll_inner test padding r.rows l.rows]
    exact exists_congr fun _ => refuses_pairAll outer false padding padding
  simp only [join, fails_bind, not_fails_pure, and_false, exists_false, or_false, hpairs,
    fails_keep]
  cases p with
  | none => simp [admits]
  | some e =>
    have hadmits (labels : List String) : admits (some e) labels = e.holds labels := rfl
    simp [hadmits, Expression.fails_holds]

end Rowset
end MiniSql
