/-
# What an outer join adds to an inner one

An outer join tests the pairs that the inner join tests, so the two are refused alike and read the
clock alike. Each row on the left finds rows on the right (`Rowset.Finds`), and

| a row that finds | stands in the inner join | in the outer join |
| --- | --- | --- |
| rows | beside each of them | beside each of them |
| none | not at all | once, beside `NULL`s |

So the outer join is the inner one with a row more for each row on the left that finds none, and it
has every row on the left. Joined again and again the rows on the left are kept
(`Query.keeps_leftJoins`), as a row that has been padded is a row on the left of the next join.
-/

import MiniSql.Proofs.Plan.Joined
import Mathlib.Data.List.Infix

namespace MiniSql

open Timed
open Grammar (Tree)

namespace Rowset

variable {test : Row → Timed Bool} {outer : Bool} {padding left found : Row}
  {right lefts : List Row} {founds : List (List Row)} {t t' mid : Time.Clock}

/-! ## What the rows on the left find -/

/-- The pairs that each row on the left is found in, the rows one after the other. -/
inductive Finds (test : Row → Timed Bool) (right : List Row) :
    Time.Clock → List Row → List (List Row) → Time.Clock → Prop
  | none {t : Time.Clock} : Finds test right t [] [] t
  | row {t mid t' : Time.Clock} {left : Row} {lefts found : List Row} {founds : List (List Row)}
      (h : Gives (pair test left right) t found mid) (hs : Finds test right mid lefts founds t') :
      Finds test right t (left :: lefts) (found :: founds) t'

/-- Pairing rows gives those that find partners, and the others padded. -/
theorem gives_pairAll {rows : List Row} :
    Gives (pairAll test outer padding right lefts) t rows t' ↔
      ∃ founds, Finds test right t lefts founds t' ∧
        rows = (List.zipWith (unpaired outer padding) lefts founds).flatten := by
  induction lefts generalizing t t' rows with
  | nil =>
    rw [pairAll, gives_pure]
    constructor
    · rintro ⟨rfl, rfl⟩
      exact ⟨[], .none, rfl⟩
    · rintro ⟨_, ⟨⟩, rfl⟩
      exact ⟨rfl, rfl⟩
  | cons left lefts ih =>
    simp only [pairAll, gives_bind, gives_pure, ih]
    constructor
    · rintro ⟨found, mid, hfound, _, _, ⟨founds, hrest, rfl⟩, rfl, rfl⟩
      exact ⟨found :: founds, .row hfound hrest, rfl⟩
    · rintro ⟨_, hfinds, rfl⟩
      cases hfinds with
      | row hfound hrest => exact ⟨_, _, hfound, _, _, ⟨_, hrest, rfl⟩, rfl, rfl⟩

/-- Whether rows are padded, and with what, does not matter to a refusal. -/
theorem refuses_pairAll {e : Error} (outer outer' : Bool) (padding padding' : Row) :
    Refuses (pairAll test outer padding right lefts) t e t' ↔
      Refuses (pairAll test outer' padding' right lefts) t e t' := by
  induction lefts generalizing t with
  | nil => simp [pairAll]
  | cons left lefts ih =>
    simp only [pairAll, refuses_bind, ih, not_refuses_pure, and_false, exists_false, or_false]

/-- The rows that are kept stand in the order of all rows. -/
theorem sublist_of_keep {rows kept : List Row} (h : Gives (keep test rows) t kept t') :
    kept.Sublist rows := by
  induction rows generalizing t kept with
  | nil =>
    obtain ⟨rfl, -⟩ := gives_pure.1 h
    exact .slnil
  | cons row rows ih =>
    simp only [keep, gives_bind, gives_pure] at h
    obtain ⟨b, _, -, rest, _, hrest, rfl, rfl⟩ := h
    cases b with
    | true => exact (ih hrest).cons_cons row
    | false => exact (ih hrest).cons row

namespace Finds

/-- A row on the left is found beside rows on the right, in their order. -/
theorem pairs (h : Finds test right t lefts founds t') :
    List.Forall₂ (fun left found => found.Sublist (right.map (left ++ ·))) lefts founds := by
  induction h with
  | none => exact .nil
  | row h _ ih => exact .cons (sublist_of_keep h) ih

/-- Where the predicate does not read the clock a row finds those that the predicate picks. -/
theorem picked {p : Expression} {labels : List String} (hp : p.readsClock = false)
    (h : Finds (p.holds labels) right t lefts founds t') :
    founds = lefts.map fun left => (right.map (left ++ ·)).filter (p.picks labels) := by
  induction h with
  | none => rfl
  | row h _ ih => rw [List.map_cons, ← ih, ((gives_keep hp).1 h).2.1]

end Finds

/-! ## Padding -/

/-- The rows on the left that find none on the right. -/
def alone (lefts : List Row) (founds : List (List Row)) : List Row :=
  ((lefts.zip founds).filter (·.2.isEmpty)).map (·.1)

/-- The rows of an outer join, each with whether it has been padded. -/
def marked (padding : Row) (lefts : List Row) (founds : List (List Row)) : List (Row × Bool) :=
  (List.zipWith (fun left found =>
    if found.isEmpty then [(left ++ padding, true)] else found.map (·, false)) lefts founds).flatten

/-- The rows on the left and what each of them is found in. -/
abbrev Paired (right : List Row) : List Row → List (List Row) → Prop :=
  List.Forall₂ fun left found => found.Sublist (right.map (left ++ ·))

/-- Without padding the rows are the pairs found. -/
theorem rows_inner (h : Paired right lefts founds) :
    (List.zipWith (unpaired false padding) lefts founds).flatten = founds.flatten := by
  induction h with
  | nil => rfl
  | cons _ _ ih =>
    rw [List.zipWith_cons_cons, List.flatten_cons, List.flatten_cons, ih]
    rfl

/-- Marking the padded rows changes none. -/
theorem marked_rows (padding : Row) (h : Paired right lefts founds) :
    (marked padding lefts founds).map (·.1) =
      (List.zipWith (unpaired true padding) lefts founds).flatten := by
  unfold marked
  induction h with
  | nil => rfl
  | @cons left found _ _ _ _ ih =>
    rw [List.zipWith_cons_cons, List.zipWith_cons_cons, List.flatten_cons, List.flatten_cons,
      List.map_append, ih]
    cases found <;> simp [unpaired, Function.comp_def]

/-- What has not been padded is the inner join. -/
theorem marked_found (padding : Row) (h : Paired right lefts founds) :
    ((marked padding lefts founds).filter fun m => !m.2).map (·.1) = founds.flatten := by
  unfold marked
  induction h with
  | nil => rfl
  | @cons left found _ _ _ _ ih =>
    rw [List.zipWith_cons_cons, List.flatten_cons, List.filter_append, List.map_append, ih,
      List.flatten_cons]
    cases found <;> simp [List.filter_map, Function.comp_def]

/-- What has been padded are the rows that find none. -/
theorem marked_alone (padding : Row) (h : Paired right lefts founds) :
    ((marked padding lefts founds).filter (·.2)).map (·.1) =
      (alone lefts founds).map (· ++ padding) := by
  unfold marked alone
  induction h with
  | nil => rfl
  | @cons left found _ _ _ _ ih =>
    rw [List.zipWith_cons_cons, List.flatten_cons, List.filter_append, List.map_append, ih,
      List.zip_cons_cons]
    cases found <;> simp [List.filter_map, Function.comp_def]

/-- Each row of the outer join has been padded or has not. -/
theorem length_outer (padding : Row) (h : Paired right lefts founds) :
    (List.zipWith (unpaired true padding) lefts founds).flatten.length =
      founds.flatten.length + (alone lefts founds).length := by
  have hfound := congrArg List.length (marked_found padding h)
  have halone := congrArg List.length (marked_alone padding h)
  have hlength := List.length_eq_length_filter_add (l := marked padding lefts founds) (·.2)
  rw [← marked_rows padding h]
  simp only [List.length_map] at hfound halone ⊢
  omega

/-- Every row on the left begins a row of the outer join, in order. -/
theorem keeps_lefts (h : Paired right lefts founds) :
    List.SublistForall₂ (· <+: ·) lefts
      (List.zipWith (unpaired true padding) lefts founds).flatten := by
  induction h with
  | nil => exact .nil
  | @cons left found lefts founds hfound _ ih =>
    rw [List.zipWith_cons_cons, List.flatten_cons]
    obtain ⟨kept, hkept, hsub⟩ := List.sublistForall₂_iff.1 ih
    refine List.sublistForall₂_iff.2 ?_
    cases found with
    | nil =>
      exact ⟨(left ++ padding) :: kept, .cons (List.prefix_append _ _) hkept, hsub.cons_cons _⟩
    | cons row found =>
      obtain ⟨other, -, rfl⟩ := List.mem_map.1 (hfound.subset List.mem_cons_self)
      refine ⟨(left ++ other) :: kept, .cons (List.prefix_append _ _) hkept, ?_⟩
      exact (hsub.trans (List.sublist_append_right found _)).cons_cons _

/-- What an outer join has beside an inner one, where the rows on the left are found in `founds`. -/
structure Pads (l r : Rowset) (founds : List (List Row)) (inner outer : Rowset) : Prop where
  columns : inner.columns = l.columns ++ r.columns ∧ outer.columns = l.columns ++ r.columns
  /-- Each row on the left is found beside rows on the right, in their order. -/
  pairs : Paired r.rows l.rows founds
  inner_rows : inner.rows = founds.flatten
  outer_rows : outer.rows = (List.zipWith (fun left found =>
    if found.isEmpty then [left ++ List.replicate r.columns.length .null] else found)
      l.rows founds).flatten
  /-- Without the rows that have been padded the outer join is the inner one. -/
  removed : ∃ marked : List (Row × Bool), marked.map (·.1) = outer.rows ∧
    (marked.filter fun m => !m.2).map (·.1) = inner.rows ∧
    (marked.filter (·.2)).map (·.1) =
      (alone l.rows founds).map (· ++ List.replicate r.columns.length .null)
  length : outer.rows.length = inner.rows.length + (alone l.rows founds).length
  /-- Every row on the left begins a row of the outer join, in order. -/
  keeps : List.SublistForall₂ (· <+: ·) l.rows outer.rows

/-- **The outer join** pads what the inner join leaves out. -/
theorem pads_of_paired {l r : Rowset} (h : Paired r.rows l.rows founds) :
    Pads l r founds
      ⟨l.columns ++ r.columns, (List.zipWith
        (unpaired false (List.replicate r.columns.length .null)) l.rows founds).flatten⟩
      ⟨l.columns ++ r.columns, (List.zipWith
        (unpaired true (List.replicate r.columns.length .null)) l.rows founds).flatten⟩ := by
  rw [rows_inner h]
  exact {
    columns := ⟨rfl, rfl⟩
    pairs := h
    inner_rows := rfl
    outer_rows := rfl
    removed := ⟨_, marked_rows _ h, marked_found _ h, marked_alone _ h⟩
    length := length_outer _ h
    keeps := keeps_lefts h }

end Rowset

/-! ## Queries -/

namespace Query

variable {table : String → Except Error Relation} {left right : Query} {p : Expression}
  {t t' : Time.Clock}

open Rowset

/-- What a join gives is told by what the rows on the left are found in. -/
theorem gives_join {outer : Bool} {set : Rowset} :
    Gives ((join left right (some p) outer).run table) t set t' ↔
      ∃ l tl r tr founds, Gives (left.run table) t l tl ∧ Gives (right.run table) tl r tr ∧
        Finds (p.holds (l.columns ++ r.columns)) r.rows tr l.rows founds t' ∧
        set = ⟨l.columns ++ r.columns, (List.zipWith
          (unpaired outer (List.replicate r.columns.length .null)) l.rows founds).flatten⟩ := by
  simp only [run, Rowset.join, gives_bind, gives_pure, gives_pairAll]
  constructor
  · rintro ⟨l, tl, hl, r, tr, hr, _, _, ⟨founds, hfounds, rfl⟩, rfl, rfl⟩
    exact ⟨l, tl, r, tr, founds, hl, hr, hfounds, rfl⟩
  · rintro ⟨l, tl, r, tr, founds, hl, hr, hfounds, rfl⟩
    exact ⟨l, tl, hl, r, tr, hr, _, _, ⟨founds, hfounds, rfl⟩, rfl, rfl⟩

/-- **An outer join is refused where the inner one is**, for the same reason. -/
theorem refuses_join {e : Error} (outer outer' : Bool) :
    Refuses ((join left right (some p) outer).run table) t e t' ↔
      Refuses ((join left right (some p) outer').run table) t e t' := by
  simp only [run, Rowset.join, refuses_bind, not_refuses_pure, and_false, exists_false, or_false]
  exact or_congr_right (exists₂_congr fun l tl => and_congr_right fun _ => or_congr_right
    (exists₂_congr fun r tr => and_congr_right fun _ => refuses_pairAll outer outer' _ _))

/-- The first query, joined with others one by one so that no row on the left is lost. -/
def leftJoins (first : Query) (others : List (Query × Expression)) : Query :=
  others.foldl (fun q other => .join q other.1 (some other.2) true) first

/-- **Outer joins in turn keep the rows of the first query.** -/
theorem keeps_leftJoins {first : Query} {others : List (Query × Expression)} {set : Rowset}
    (h : Gives ((leftJoins first others).run table) t set t') :
    ∃ l tl, Gives (first.run table) t l tl ∧
      List.SublistForall₂ (· <+: ·) l.rows set.rows := by
  induction others generalizing first with
  | nil => exact ⟨set, t', h, refl _⟩
  | cons other others ih =>
    obtain ⟨mid, _, hmid, hset⟩ := ih h
    obtain ⟨l, tl, r, tr, founds, hl, -, hfounds, rfl⟩ := gives_join.1 hmid
    exact ⟨l, tl, hl, IsTrans.trans _ _ _ (keeps_lefts hfounds.pairs) hset⟩

end Query

/-! ## Plans -/

/-- Joins that are written one behind the other are planned as outer joins in turn. -/
theorem Planning.Draft.source_leftJoins {arguments : List Value} {d d' : Draft} {first : Query}
    {joins : List (String × Tree)} (hsource : d.source = some first)
    (h : (joins.map fun j => Tree.joinOn true j.1 j.2).foldlM (Draft.add arguments) d = .ok d') :
    ∃ others, d'.source = some (Query.leftJoins first others) := by
  induction joins generalizing d first with
  | nil =>
    cases h
    exact ⟨[], hsource⟩
  | cons j joins ih =>
    rw [List.map_cons, List.foldlM_cons, add_joinOn true j.1 hsource] at h
    obtain ⟨mid, hmid, h⟩ := Except.bind_eq_ok.1 h
    obtain ⟨e, -, hmid⟩ := Except.bind_eq_ok.1 hmid
    cases hmid
    obtain ⟨others, hothers⟩ := ih rfl h
    exact ⟨(.scan j.1, e) :: others, hothers⟩

/-! ## The law -/

namespace Query

open Rowset

/-- What an outer join gives, beside the inner one on the same predicate. -/
structure OuterLaw (table : String → Except Error Relation) (left right : Query) (p : Expression)
    (t : Time.Clock) : Prop where
  refuses_iff : ∀ e t', Refuses ((join left right (some p) true).run table) t e t' ↔
    Refuses ((join left right (some p) false).run table) t e t'
  gives_iff : (∃ set t', Gives ((join left right (some p) true).run table) t set t') ↔
    ∃ set t', Gives ((join left right (some p) false).run table) t set t'
  pads : ∀ inner outer t₁ t₂, Gives ((join left right (some p) false).run table) t inner t₁ →
    Gives ((join left right (some p) true).run table) t outer t₂ →
    t₁ = t₂ ∧ ∃ l tl r tr founds, Gives (left.run table) t l tl ∧ Gives (right.run table) tl r tr ∧
      Finds (p.holds (l.columns ++ r.columns)) r.rows tr l.rows founds t₁ ∧
      Pads l r founds inner outer ∧
      (p.readsClock = false → founds = l.rows.map fun left =>
        (r.rows.map (left ++ ·)).filter (p.picks (l.columns ++ r.columns)))
  /-- Nor is a row of the first table lost where joins that are planned as outer ones follow. -/
  chained : ∀ (arguments : List Value) (d d' : Planning.Draft) (joins : List (String × Tree)),
    d.source = some left →
    (joins.map fun j => Tree.joinOn true j.1 j.2).foldlM (Planning.Draft.add arguments) d =
      .ok d' →
    ∃ source, d'.source = some source ∧ ∀ set t', Gives (source.run table) t set t' →
      ∃ l tl, Gives (left.run table) t l tl ∧ List.SublistForall₂ (· <+: ·) l.rows set.rows

/-- **An outer join loses nothing and invents nothing**, whatever its sides are, its predicate, and
the time at which it starts. -/
theorem outer_join_law (table : String → Except Error Relation) (left right : Query)
    (p : Expression) (t : Time.Clock) : OuterLaw table left right p t where
  refuses_iff _ _ := refuses_join true false
  gives_iff := by
    constructor
    · rintro ⟨_, t', h⟩
      obtain ⟨l, tl, r, tr, founds, hl, hr, hfounds, -⟩ := gives_join.1 h
      exact ⟨_, t', gives_join.2 ⟨l, tl, r, tr, founds, hl, hr, hfounds, rfl⟩⟩
    · rintro ⟨_, t', h⟩
      obtain ⟨l, tl, r, tr, founds, hl, hr, hfounds, -⟩ := gives_join.1 h
      exact ⟨_, t', gives_join.2 ⟨l, tl, r, tr, founds, hl, hr, hfounds, rfl⟩⟩
  pads inner outer t₁ t₂ hinner houter := by
    obtain ⟨l, tl, r, tr, founds, hl, hr, hfounds, rfl⟩ := gives_join.1 hinner
    have hpadded : Gives ((join left right (some p) true).run table) t _ t₁ :=
      gives_join.2 ⟨l, tl, r, tr, founds, hl, hr, hfounds, rfl⟩
    obtain ⟨rfl, rfl⟩ := hpadded.unique houter
    exact ⟨rfl, l, tl, r, tr, founds, hl, hr, hfounds, pads_of_paired hfounds.pairs,
      fun hp => hfounds.picked hp⟩
  chained _ _ _ _ hsource h := by
    obtain ⟨others, hothers⟩ := Planning.Draft.source_leftJoins hsource h
    exact ⟨_, hothers, fun _ _ => keeps_leftJoins⟩

end Query
end MiniSql
