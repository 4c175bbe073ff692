/-
# A join is a filtered product

The product of two sets of rows puts every row on the left beside every row on the right, in the
order in which a join looks at them. An inner join tests the pairs one after the other, and so does
a filter behind the product: they are one computation, with the same rows, the same refusal and the
same readings of the clock (`Query.run_join_inner`).

Two filters in turn test the first predicate of all rows before they test the second of any. A
conjunction tests the second of a row right behind the first. Where the first does not read the
clock and has a value for every row they are one computation too (`Rowset.keep_keep`), and where
either gives rows it has these values.
-/

import MiniSql.Proofs.Query.Matching

namespace MiniSql

open Timed

/-! ## One test behind another -/

/-- The second test, where the first holds. -/
def Timed.both (first second : Timed Bool) : Timed Bool := do
  if ← first then second else return false

/-- Tests in turn may be grouped in any way. -/
theorem Timed.both_assoc (a b c : Timed Bool) : both (both a b) c = both a (both b c) := by
  simp only [both, bind_assoc]
  refine bind_congr fun x => ?_
  cases x <;> simp

namespace Expression

variable {e : Expression} {labels : List String} {row : Row} {rows : List Row}

/-- A predicate that does not ask for the time is what it says at the first instant. -/
theorem holds_eq_pure (h : e.readsClock = false) {b : Bool} (hb : e.truth labels row = .ok b) :
    e.holds labels row = pure b := by
  have htimeless : Timeless (e.holds labels row) := (evaluate_timeless h).bind fun _ => .pure _
  rw [htimeless.eq_ofExcept]
  exact congrArg Timed.ofExcept hb

/-- A conjunction tests its right side where the left holds. -/
theorem holds_and (left right : Expression) (labels : List String) (row : Row) :
    (Expression.and left right).holds labels row =
      both (left.holds labels row) (right.holds labels row) := by
  simp only [holds, evaluate, both, bind_assoc, pure_bind]
  refine bind_congr fun a => ?_
  cases a.isTruthy <;> simp [Value.isTruthy]

end Expression

namespace Rowset

variable {test : Row → Timed Bool} {rows right lefts : List Row}

/-! ## The product -/

/-- Every row on the left beside every row on the right. -/
def product (lefts right : List Row) : List Row := lefts.flatMap fun left => right.map (left ++ ·)

/-- Rows are kept one list after the other. -/
theorem keep_append (test : Row → Timed Bool) (rows others : List Row) :
    keep test (rows ++ others) = (do
      let kept ← keep test rows
      let rest ← keep test others
      return kept ++ rest) := by
  induction rows with
  | nil => simp [keep]
  | cons row rows ih =>
    simp only [List.cons_append, keep, ih, bind_assoc, pure_bind]
    refine bind_congr fun b => bind_congr fun kept => bind_congr fun rest => ?_
    cases b <;> rfl

/-- A test that holds always keeps all rows. -/
theorem keep_true (rows : List Row) : keep (fun _ => return true) rows = return rows := by
  induction rows with
  | nil => rfl
  | cons row rows ih => simp [keep, ih]

/-- The pairs of an inner join are those of the product for which the test holds. -/
theorem pairAll_inner (test : Row → Timed Bool) (padding : Row) (right lefts : List Row) :
    pairAll test false padding right lefts = keep test (product lefts right) := by
  induction lefts with
  | nil => rfl
  | cons left lefts ih =>
    have hproduct : product (left :: lefts) right =
        right.map (left ++ ·) ++ product lefts right := List.flatMap_cons
    rw [pairAll, ih, hproduct, keep_append]
    rfl

/-- **The inner join** filters the pairs of rows. -/
theorem join_inner (l r : Rowset) (predicate : Option Expression) :
    l.join r predicate false = (do
      let columns := l.columns ++ r.columns
      return ⟨columns, ← keep (admits predicate columns) (product l.rows r.rows)⟩) := by
  simp only [join, pairAll_inner]

/-- Without a predicate an inner join is the product. -/
theorem join_none (l r : Rowset) :
    l.join r none false = return ⟨l.columns ++ r.columns, product l.rows r.rows⟩ := by
  have hall (columns : List String) : admits none columns = fun _ => return true := rfl
  rw [join_inner]
  simp [hall, keep_true]

/-! ## Two filters -/

variable {e : Expression} {labels : List String}

/-- A predicate that does not read the clock and has a value for each row picks rows. -/
theorem keep_eq (h : e.readsClock = false) (hd : e.Decides labels rows) :
    keep (e.holds labels) rows = return rows.filter (e.picks labels) := by
  induction rows with
  | nil => rfl
  | cons row rows ih =>
    obtain ⟨⟨b, hb⟩, hd⟩ := Expression.decides_cons.1 hd
    rw [keep, Expression.holds_eq_pure h hb, ih hd, pure_bind, pure_bind, List.filter_cons,
      Expression.picks_eq hb]

/-- **Two filters are the filter of a conjunction**, where the first does not read the clock and has
a value for each row. The second may do either. -/
theorem keep_keep (h : e.readsClock = false) (hd : e.Decides labels rows)
    (test : Row → Timed Bool) : (keep (e.holds labels) rows >>= keep test) =
      keep (fun row => both (e.holds labels row) (test row)) rows := by
  rw [keep_eq h hd, pure_bind]
  induction rows with
  | nil => rfl
  | cons row rows ih =>
    obtain ⟨⟨b, hb⟩, hd⟩ := Expression.decides_cons.1 hd
    rw [keep, ← ih hd, both, Expression.holds_eq_pure h hb, pure_bind, List.filter_cons,
      Expression.picks_eq hb]
    cases b with
    | true => rfl
    | false => simp

/-- A filter of a conjunction that gives rows has values of its left side. -/
theorem decides_of_keep_both (h : e.readsClock = false) {t t' : Time.Clock} {kept : List Row}
    (hkept : Gives (keep (fun row => both (e.holds labels row) (test row)) rows) t kept t') :
    e.Decides labels rows := by
  induction rows generalizing t t' kept with
  | nil => exact fun _ hrow => nomatch hrow
  | cons row rows ih =>
    rw [keep, gives_bind] at hkept
    obtain ⟨_, _, hrow, hkept⟩ := hkept
    obtain ⟨_, _, hrest, -⟩ := gives_bind.1 hkept
    obtain ⟨b, _, hb, -⟩ := gives_bind.1 hrow
    exact Expression.decides_cons.2 ⟨⟨b, ((Expression.gives_holds h).1 hb).1⟩, ih hrest⟩

/-- The rows of which one predicate holds and then another are those of which both do. -/
theorem gives_keep_keep (h : e.readsClock = false) {t t' : Time.Clock} {kept : List Row} :
    Gives (keep (e.holds labels) rows >>= keep test) t kept t' ↔
      Gives (keep (fun row => both (e.holds labels row) (test row)) rows) t kept t' := by
  constructor
  · intro hkept
    obtain ⟨_, _, hfirst, -⟩ := gives_bind.1 hkept
    rwa [keep_keep h ((gives_keep h).1 hfirst).1] at hkept
  · intro hkept
    rwa [keep_keep h (decides_of_keep_both h hkept)]

end Rowset

namespace Query

/-- **An inner join is the filter of a product**, whatever its sides are and its predicate. -/
theorem run_join_inner (table : String → Except Error Relation) (left right : Query)
    (p : Expression) : (join left right (some p) false).run table =
      (filter (join left right none false) p).run table := by
  simp only [run, bind_assoc]
  refine bind_congr fun l => bind_congr fun r => ?_
  rw [Rowset.join_none, Rowset.join_inner, pure_bind]
  rfl

end Query
end MiniSql
