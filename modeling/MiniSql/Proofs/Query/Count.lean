/-
# Counting rows

`COUNT(*)` is the number of rows and `COUNT(c)` the number of rows with a value in the column. The
others are those of which `c IS NULL` holds, so the two add up (`Rowset.counted_add_nulls`).

A conjunction with `c IS NULL` is a filter of the rows that its left side keeps, and reads the clock
as its left side does: in a row of the width of its labels the column has a value, and whether that
is `NULL` is decided without the time (`Rowset.filter_and_isNull`).
-/

import MiniSql.Proofs.Query.Join

namespace MiniSql

open Timed

namespace Rowset

variable {s s' : Rowset} {test second : Row → Timed Bool} {rows : List Row} {c : ColumnRef}
  {i : Nat} {e : Expression}

/-! ## Functions over a column -/

/-- One column of values under a label. -/
def single (label : String) (values : List Value) : Rowset := ⟨[label], values.map fun v => [v]⟩

/-- A function that is never refused gives one value for a column. -/
theorem aggregate_column {f : Aggregate} {g : List Value → Value}
    (hf : ∀ values, f.value values = .ok (g values)) (s : Rowset) (c : ColumnRef) :
    s.aggregate [⟨f, some c⟩] =
      (fun i => single (AggregateCall.text ⟨f, some c⟩) [g (s.column i)]) <$>
        c.resolve s.columns := by
  have hcall : s.callValue ⟨f, some c⟩ = (fun i => g (s.column i)) <$> c.resolve s.columns := by
    unfold callValue argumentValues
    dsimp only
    cases c.resolve s.columns with
    | error x => rfl
    | ok i => exact hf (s.column i)
  rw [aggregate, List.mapM_cons, hcall]
  cases c.resolve s.columns <;> rfl

/-- A call for a column that is none is refused. -/
theorem resolve_of_aggregate {f : Aggregate} (h : s.aggregate [⟨f, some c⟩] = .ok s') :
    ∃ i, c.resolve s.columns = .ok i := by
  obtain ⟨values, hvalues, -⟩ := Except.bind_eq_ok.1 h
  obtain ⟨v, -, hcall, -⟩ := List.forall₂_cons_left_iff.1 (Except.mapM_eq_ok.1 hvalues)
  obtain ⟨column, hcolumn, -⟩ := Except.bind_eq_ok.1 hcall
  obtain ⟨i, hi, -⟩ := Except.bind_eq_ok.1 hcolumn
  exact ⟨i, hi⟩

/-- **What functions give is one row**, whatever the rows are. -/
theorem rows_aggregate {calls : List AggregateCall} (h : s.aggregate calls = .ok s') :
    ∃ values, s'.rows = [values] := by
  obtain ⟨values, -, h⟩ := Except.bind_eq_ok.1 h
  cases h
  exact ⟨values, rfl⟩

/-! ## Numbers of rows -/

/-- A number under a label. -/
def number (label : String) (n : Nat) : Rowset := single label [.integer (Int64.ofNat n)]

/-- How many rows have a value in the column at a position. -/
def counted (s : Rowset) (i : Nat) : Nat := (s.column i).countP fun v => !v.isNull

/-- The rows that have none. -/
def nulls (s : Rowset) (i : Nat) : Rowset :=
  { s with rows := s.rows.filter fun row => (Relation.valueAt i row).isNull }

/-- **Every row has a value in a column or has none.** -/
theorem counted_add_nulls (s : Rowset) (i : Nat) :
    s.counted i + (s.nulls i).rows.length = s.rows.length := by
  have hvalues : s.counted i =
      s.rows.countP fun row => !(Relation.valueAt i row).isNull := List.countP_map
  have hothers : (s.nulls i).rows.length =
      s.rows.countP fun row => (Relation.valueAt i row).isNull :=
    List.countP_eq_length_filter.symm
  rw [hvalues, hothers, Nat.add_comm,
    List.length_eq_countP_add_countP fun row => (Relation.valueAt i row).isNull]
  simp

/-- All rows are counted. -/
theorem aggregate_countAll (s : Rowset) :
    s.aggregate [⟨.count, none⟩] = .ok (.number "count(*)" s.rows.length) := by
  have hall : (s.rows.map fun _ => Value.boolean true).countP (fun v => !v.isNull) =
      s.rows.length := by
    rw [List.countP_map]
    exact List.countP_eq_length.2 fun _ _ => rfl
  show Except.ok (Rowset.mk _ [[Value.integer (Int64.ofNat _)]]) = _
  rw [hall]
  rfl

/-- The values that are there are counted. -/
theorem aggregate_count (hc : c.resolve s.columns = .ok i) :
    s.aggregate [⟨.count, some c⟩] =
      .ok (.number (AggregateCall.text ⟨.count, some c⟩) (s.counted i)) := by
  rw [aggregate_column (fun _ => rfl), hc]
  rfl

/-- Choosing columns leaves the number of rows. -/
theorem length_project {items : List SelectItem} (h : s.project items = .ok s') :
    s'.rows.length = s.rows.length := by
  obtain ⟨picked, -, h⟩ := Except.bind_eq_ok.1 h
  cases h
  exact List.length_map _

/-! ## The rows without a value -/

/-- A second test that is known of every row filters what the first one keeps. -/
theorem keep_both {known : Row → Bool} (h : ∀ row ∈ rows, second row = pure (known row)) :
    keep (fun row => both (test row) (second row)) rows = List.filter known <$> keep test rows := by
  induction rows with
  | nil => rfl
  | cons row rows ih =>
    obtain ⟨hrow, hrows⟩ := List.forall_mem_cons.1 h
    simp only [keep, both, hrow, bind_assoc, map_bind, map_pure]
    refine bind_congr fun b => ?_
    cases b with
    | true =>
      simp only [if_pos, pure_bind]
      show (keep (fun row => both (test row) (second row)) rows >>= _) = _
      rw [ih hrows, bind_map_left]
      refine bind_congr fun rest => ?_
      rw [List.filter_cons]
    | false =>
      simp only [Bool.false_eq_true, if_false, pure_bind]
      show (keep (fun row => both (test row) (second row)) rows >>= _) = _
      rw [ih hrows, bind_map_left]

/-- Whether a column is `NULL` is known of every row of the width of its labels. -/
theorem holds_isNull (hs : s.Rectangular) (hc : c.resolve s.columns = .ok i) :
    ∀ row ∈ s.rows, (Expression.isNull (.field c) false).holds s.columns row =
      pure (Relation.valueAt i row).isNull := by
  intro row hrow
  have hlt : i < row.length := hs row hrow ▸ ColumnRef.resolve_lt hc
  have hvalue : Expression.fieldValue s.columns row c = .ok (Relation.valueAt i row) := by
    refine Except.bind_eq_ok.2 ⟨i, hc, ?_⟩
    rw [List.getElem?_eq_getElem hlt, Relation.valueAt, List.getElem?_eq_getElem hlt]
    rfl
  have hfield : Timed.ofExcept (Expression.fieldValue s.columns row c) =
      pure (Relation.valueAt i row) := congrArg Timed.ofExcept hvalue
  simp only [Expression.holds, Expression.evaluate, hfield, pure_bind]
  cases (Relation.valueAt i row).isNull <;> rfl

/-- **A conjunction with `c IS NULL`** keeps the rows that its left side keeps and that have no
value in the column. -/
theorem filter_and_isNull (hs : s.Rectangular) (hc : c.resolve s.columns = .ok i) :
    s.filter (.and e (.isNull (.field c) false)) = (·.nulls i) <$> s.filter e := by
  have htest : (Expression.and e (.isNull (.field c) false)).holds s.columns =
      fun row => both (e.holds s.columns row)
        ((Expression.isNull (.field c) false).holds s.columns row) :=
    funext fun row => Expression.holds_and e _ s.columns row
  simp only [filter, htest, keep_both (holds_isNull hs hc), map_eq_pure_bind, bind_assoc, pure_bind]
  rfl

end Rowset
end MiniSql
