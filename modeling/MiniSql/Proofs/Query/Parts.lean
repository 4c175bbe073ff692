/-
# Tables side by side

The rows that a query works on before it shows anything are made of rows of its tables. The columns
are those of the tables side by side, in the order in which they are named, and a row is cut into
one part for each table (`Relation.cut`): a row of the table, or `NULL`s where an outer join has
found none. Each step keeps this (`Query.run_inParts`):

| step | rows |
| --- | --- |
| scan | those of the table |
| join | a row of the tables before, with a row of the table or `NULL`s behind it |
| filter, offset, limit | some of the rows |
| order | the same rows |
-/

import MiniSql.Proofs.Query.Width

namespace MiniSql

open Timed

variable {t t' : Time.Clock}

/-! ## Parts -/

namespace Relation

/-- What a row of joined tables has of one of them. -/
def Part (r : Relation) (part : Row) : Prop :=
  part ∈ r.scan.map (·.2) ∨ part = List.replicate r.schema.width .null

/-- A row cut into parts of the widths of some tables. -/
def cut : List Relation → Row → List Row
  | [], _ => []
  | r :: rs, row => row.take r.schema.width :: cut rs (row.drop r.schema.width)

/-- The parts are as wide as the tables. -/
def Fit {α : Type} (rs : List Relation) (parts : List (List α)) : Prop :=
  List.Forall₂ (fun r part => part.length = r.schema.width) rs parts

/-- The part of a relation is as wide as its schema. -/
theorem Part.length {r : Relation} {part : Row} (hr : r.rowset.Rectangular) (h : r.Part part) :
    part.length = r.schema.width := by
  rcases h with h | rfl
  · exact (hr part h).trans r.schema.length_labels
  · exact List.length_replicate

/-- Parts of the relations fit them. -/
theorem fit_of_parts {rs : List Relation} {parts : List Row}
    (hrs : ∀ r ∈ rs, r.rowset.Rectangular) (h : List.Forall₂ Part rs parts) : Fit rs parts :=
  ((List.forall₂_and_left rs parts).2 ⟨hrs, h⟩).imp fun _ _ hpart => hpart.2.length hpart.1

/-- Parts that are put together are cut apart again. -/
theorem cut_flatten {rs : List Relation} {parts : List Row} (h : Fit rs parts) :
    cut rs parts.flatten = parts := by
  induction h with
  | nil => rfl
  | cons hpart _ ih =>
    rw [List.flatten_cons, cut, List.take_left' hpart, List.drop_left' hpart, ih]

/-- A row is cut into one piece for each relation. -/
theorem length_cut (rs : List Relation) (row : Row) : (cut rs row).length = rs.length := by
  induction rs generalizing row with
  | nil => rfl
  | cons r rs ih => rw [cut, List.length_cons, List.length_cons, ih]

/-- The labels of the relations fit them. -/
theorem fit_labels (rs : List Relation) : Fit rs (rs.map (·.schema.labels)) := by
  rw [Fit, List.forall₂_map_right_iff, List.forall₂_same]
  exact fun r _ => r.schema.length_labels

end Relation

namespace Rowset

open MiniSql.Relation (Part)

variable {s s' : Rowset} {rs : List Relation} {r : Relation}

/-- The columns are those of some tables side by side, and every row is put together of parts. -/
structure InParts (s : Rowset) (rs : List Relation) : Prop where
  columns : s.columns = rs.flatMap (·.schema.labels)
  parts : ∀ row ∈ s.rows, ∃ parts, List.Forall₂ Part rs parts ∧ row = parts.flatten

/-- The parts are those that a row is cut into. -/
theorem InParts.cut (h : s.InParts rs) (hrs : ∀ r ∈ rs, r.rowset.Rectangular) :
    ∀ row ∈ s.rows, List.Forall₂ Part rs (Relation.cut rs row) ∧
      (Relation.cut rs row).flatten = row := by
  intro row hrow
  obtain ⟨parts, hparts, rfl⟩ := h.parts row hrow
  rw [Relation.cut_flatten (Relation.fit_of_parts hrs hparts)]
  exact ⟨hparts, rfl⟩

/-! ## Each step keeps the parts -/

/-- The rows of one relation are its parts. -/
theorem inParts_rowset (r : Relation) : r.rowset.InParts [r] := by
  constructor
  · exact (List.flatMap_singleton _ _).symm
  · intro row hrow
    exact ⟨[row], .cons (.inl hrow) .nil, (List.flatten_singleton ..).symm⟩

/-- Some of the rows are put together as all are. -/
theorem InParts.of_mem (h : s.InParts rs) (hcolumns : s'.columns = s.columns)
    (hrows : ∀ row ∈ s'.rows, row ∈ s.rows) : s'.InParts rs :=
  ⟨hcolumns.trans h.columns, fun row hrow => h.parts row (hrows row hrow)⟩

/-- Filtered rows are in parts as before. -/
theorem InParts.filter {p : Expression} (h : s.InParts rs) (hs' : Gives (s.filter p) t s' t') :
    s'.InParts rs := by
  simp only [Rowset.filter, gives_bind, gives_pure] at hs'
  obtain ⟨kept, _, hkept, rfl, -⟩ := hs'
  exact h.of_mem rfl (mem_of_keep hkept)

/-- The rows behind the first ones are in parts as before. -/
theorem InParts.drop (h : s.InParts rs) (n : Nat) : (s.drop n).InParts rs :=
  h.of_mem rfl fun _ hrow => List.mem_of_mem_drop hrow

/-- The first rows are in parts as before. -/
theorem InParts.take (h : s.InParts rs) (n : Nat) : (s.take n).InParts rs :=
  h.of_mem rfl fun _ hrow => List.mem_of_mem_take hrow

/-- Sorted rows are in parts as before. -/
theorem InParts.sort {keys : List (ColumnRef × Direction)} (h : s.InParts rs)
    (hs' : s.sort keys = .ok s') : s'.InParts rs := by
  obtain ⟨positions, -, hs'⟩ := Except.bind_eq_ok.1 hs'
  cases hs'
  exact h.of_mem rfl fun _ hrow => List.mem_mergeSort.1 hrow

/-- A row that a join gives is one on the left with one on the right, or with padding. -/
theorem mem_pairAll {test : Row → Timed Bool} {outer : Bool} {padding : Row}
    {right lefts rows : List Row} (h : Gives (pairAll test outer padding right lefts) t rows t') :
    ∀ row ∈ rows, ∃ left ∈ lefts, ∃ other, (other ∈ right ∨ other = padding) ∧
      row = left ++ other := by
  induction lefts generalizing t rows t' with
  | nil =>
    obtain ⟨rfl, -⟩ := gives_pure.1 h
    simp
  | cons left lefts ih =>
    simp only [pairAll, pair, gives_bind, gives_pure] at h
    obtain ⟨found, _, hfound, rest, _, hrest, rfl, -⟩ := h
    have hpaired : ∀ row ∈ found, ∃ other ∈ right, row = left ++ other := by
      intro row hrow
      obtain ⟨other, hother, rfl⟩ := List.mem_map.1 (mem_of_keep hfound row hrow)
      exact ⟨other, hother, rfl⟩
    intro row hrow
    rcases List.mem_append.1 hrow with hrow | hrow
    · refine ⟨left, List.mem_cons_self, ?_⟩
      unfold unpaired at hrow
      split at hrow
      · exact ⟨padding, .inr rfl, List.mem_singleton.1 hrow⟩
      · obtain ⟨other, hother, rfl⟩ := hpaired row hrow
        exact ⟨other, .inl hother, rfl⟩
    · obtain ⟨left', hleft', h⟩ := ih hrest row hrow
      exact ⟨left', List.mem_cons_of_mem _ hleft', h⟩

/-- A join puts one more part behind the others. -/
theorem InParts.join {p : Option Expression} {outer : Bool} (h : s.InParts rs)
    (hs' : Gives (s.join r.rowset p outer) t s' t') : s'.InParts (rs ++ [r]) := by
  simp only [Rowset.join, gives_bind, gives_pure] at hs'
  obtain ⟨rows, _, hrows, rfl, -⟩ := hs'
  constructor
  · show s.columns ++ r.schema.labels = _
    rw [h.columns, List.flatMap_append, List.flatMap_singleton]
  · intro row hrow
    obtain ⟨left, hleft, other, hother, rfl⟩ := mem_pairAll hrows row hrow
    obtain ⟨parts, hparts, rfl⟩ := h.parts left hleft
    have hpart : r.Part other := by
      rcases hother with hother | rfl
      · exact .inl hother
      · refine .inr ?_
        rw [← r.schema.length_labels]
        rfl
    refine ⟨parts ++ [other], List.rel_append hparts (.cons hpart .nil), ?_⟩
    rw [List.flatten_append, List.flatten_singleton]

end Rowset

/-! ## Queries before they show anything -/

namespace Query

/-- The query reads tables, joins them one by one, and picks and sorts rows. -/
inductive Tabular : Query → Prop
  | scan (table : String) : Tabular (scan table)
  | join {left : Query} (h : left.Tabular) (table : String) (predicate : Option Expression)
      (outer : Bool) : Tabular (join left (scan table) predicate outer)
  | filter {source : Query} (h : source.Tabular) (predicate : Expression) :
      Tabular (filter source predicate)
  | order {source : Query} (h : source.Tabular) (keys : List (ColumnRef × Direction)) :
      Tabular (order source keys)
  | offset {source : Query} (h : source.Tabular) (count : Nat) : Tabular (offset source count)
  | limit {source : Query} (h : source.Tabular) (count : Nat) : Tabular (limit source count)

variable {table : String → Except Error Relation}

/-- **The rows of a query** are put together of rows of its tables, before it shows anything. -/
theorem Tabular.run_inParts {q : Query} (hq : q.Tabular) {s : Rowset}
    (h : Gives (q.run table) t s t') :
    ∃ rs, List.Forall₂ (fun name r => table name = .ok r) q.tables rs ∧ s.InParts rs := by
  induction hq generalizing t s t' with
  | scan name =>
    simp only [run, gives_bind, gives_ofExcept, gives_pure] at h
    obtain ⟨r, _, ⟨hr, -⟩, rfl, -⟩ := h
    exact ⟨[r], .cons hr .nil, Rowset.inParts_rowset r⟩
  | join _ name p outer ih =>
    simp only [run, gives_bind, gives_ofExcept, gives_pure] at h
    obtain ⟨l, _, hl, _, _, ⟨r, _, ⟨hr, -⟩, rfl, -⟩, h⟩ := h
    obtain ⟨rs, hrs, hparts⟩ := ih hl
    exact ⟨rs ++ [r], List.rel_append hrs (.cons hr .nil), hparts.join h⟩
  | filter _ p ih =>
    obtain ⟨mid, _, hmid, h⟩ := gives_bind.1 h
    obtain ⟨rs, hrs, hparts⟩ := ih hmid
    exact ⟨rs, hrs, hparts.filter h⟩
  | order _ keys ih =>
    obtain ⟨mid, _, hmid, h⟩ := gives_bind.1 h
    obtain ⟨rs, hrs, hparts⟩ := ih hmid
    exact ⟨rs, hrs, hparts.sort (gives_ofExcept.1 h).1⟩
  | offset _ n ih =>
    obtain ⟨mid, _, hmid, h⟩ := gives_bind.1 h
    obtain ⟨rfl, -⟩ := gives_pure.1 h
    obtain ⟨rs, hrs, hparts⟩ := ih hmid
    exact ⟨rs, hrs, hparts.drop n⟩
  | limit _ n ih =>
    obtain ⟨mid, _, hmid, h⟩ := gives_bind.1 h
    obtain ⟨rfl, -⟩ := gives_pure.1 h
    obtain ⟨rs, hrs, hparts⟩ := ih hmid
    exact ⟨rs, hrs, hparts.take n⟩

end Query
end MiniSql
