/-
# What a star shows

`u.*` shows the columns whose labels name `u`. Labels name what stands before the first full stop of
their table, so over tables side by side these are all columns of some of the tables, in order, and
of a row the parts that belong to them (`Rowset.project_allOf`).

| the table | is shown by `u.*` |
| --- | --- |
| `u`, without a full stop in it | yes |
| `u`, with one | no |
| `u.z` | yes, if `u` has no full stop in it |
| any other | no |

So `u.*` shows the table `u` and nothing else exactly where `u` has no full stop and no table beside
it is called `u.z` (`Rowset.starOf_eq_iff`).
-/

import MiniSql.Proofs.Query.Parts
import MiniSql.Proofs.Reference.Labels

namespace MiniSql

/-! ## The tables that are shown -/

namespace Relation

variable {α β : Type} {u : String} {rs : List Relation} {r : Relation}

/-- The labels of the table name `u`. -/
def Starred (u : String) (r : Relation) : Prop := upToStop r.schema.name = u

instance (u : String) (r : Relation) : Decidable (r.Starred u) := decEq _ _

/-- Of things for each table, those for the tables that `u.*` shows. -/
def starred (u : String) (rs : List Relation) (xs : List α) : List α :=
  ((rs.zip xs).filter fun p => p.1.Starred u).map (·.2)

/-- The first relation takes the first element, if it is meant. -/
@[simp] theorem starred_cons (x : α) (xs : List α) : starred u (r :: rs) (x :: xs) =
    if r.Starred u then x :: starred u rs xs else starred u rs xs := by
  rw [starred, List.zip_cons_cons, List.filter_cons]
  split <;> simp_all [starred]

/-- The elements may be changed before or after. -/
theorem starred_map (f : α → β) (xs : List α) :
    starred u rs (xs.map f) = (starred u rs xs).map f := by
  induction rs generalizing xs with
  | nil => rfl
  | cons r rs ih =>
    cases xs with
    | nil => rfl
    | cons x xs =>
      rw [List.map_cons, starred_cons, starred_cons, ih]
      split <;> rfl

/-- The tables themselves are told by their names. -/
theorem starred_self (u : String) (rs : List Relation) :
    starred u rs rs = rs.filter fun r => r.Starred u := by
  induction rs with
  | nil => rfl
  | cons r rs ih => simp [List.filter_cons, ih]

/-- Where no relation is meant, nothing is taken. -/
theorem starred_eq_nil (h : ∀ r ∈ rs, ¬r.Starred u) (xs : List α) : starred u rs xs = [] := by
  have hnone : ((rs.zip xs).filter fun p => p.1.Starred u) = [] :=
    List.filter_eq_nil_iff.2 fun p hp => by simpa using h p.1 (List.of_mem_zip hp).1
  rw [starred, hnone, List.map_nil]

/-- Where one table is shown and no other, its thing is. -/
theorem starred_of_only {i : Nat} {xs : List α} (hlength : xs.length = rs.length) {x : α}
    (hx : xs[i]? = some x) (honly : ∀ j r, rs[j]? = some r → (r.Starred u ↔ j = i)) :
    starred u rs xs = [x] := by
  induction rs generalizing i xs with
  | nil =>
    rw [List.length_eq_zero_iff.1 hlength] at hx
    cases hx
  | cons r rs ih =>
    obtain ⟨y, xs, rfl⟩ := List.exists_cons_of_length_eq_add_one hlength
    have hlength : xs.length = rs.length := by simpa using hlength
    have hfirst := honly 0 r rfl
    rw [starred_cons]
    cases i with
    | zero =>
      obtain rfl : y = x := by simpa using hx
      have hrest : ∀ r ∈ rs, ¬r.Starred u := by
        intro r' hr' h
        obtain ⟨j, hj⟩ := List.getElem?_of_mem hr'
        have := (honly (j + 1) r' hj).1 h
        omega
      rw [if_pos (hfirst.2 rfl), starred_eq_nil hrest]
    | succ i =>
      rw [if_neg fun h => absurd (hfirst.1 h) (by omega)]
      refine ih hlength hx fun j r' hj => ?_
      rw [honly (j + 1) r' hj]
      omega

end Relation

namespace Rowset

open MiniSql.Relation (Fit Starred starred)

variable {α : Type} {u : String} {s : Rowset} {rs : List Relation} {labels : List String}

/-! ## Positions -/

/-- The positions in further labels follow those in the first. -/
theorem positionsOf_append (start : Nat) (labels' : List String) :
    positionsOf u start (labels ++ labels') =
      positionsOf u start labels ++ positionsOf u (start + labels.length) labels' := by
  induction labels generalizing start with
  | nil => rfl
  | cons l labels ih =>
    have hlength : start + (l :: labels).length = start + 1 + labels.length := by
      rw [List.length_cons]
      omega
    rw [List.cons_append, positionsOf, positionsOf, hlength, ih]
    split <;> rfl

/-- Of one table all columns are shown, or none. -/
theorem positionsOf_labels (start : Nat) (r : Relation) : positionsOf u start r.schema.labels =
    if r.Starred u then List.range' start r.schema.width else [] := by
  have hcolumns : ∀ (columns : List Column) start,
      positionsOf u start (columns.map fun c => label r.schema.name c.name) =
        if r.Starred u then List.range' start columns.length else [] := by
    intro columns
    induction columns with
    | nil => simp [positionsOf]
    | cons c columns ih =>
      intro start
      have hlabel : labelTable (label r.schema.name c.name) = u ↔ r.Starred u := by
        rw [labelTable_label]
        rfl
      rw [List.map_cons, positionsOf, ih]
      simp only [hlabel]
      split <;> rfl
  exact hcolumns r.schema.columns start

/-- No positions are found exactly if no relation is meant. -/
theorem positionsOf_eq_nil {start : Nat} (hrs : ∀ r ∈ rs, r.schema.columns ≠ []) :
    positionsOf u start (rs.flatMap (·.schema.labels)) = [] ↔ ∀ r ∈ rs, ¬r.Starred u := by
  induction rs generalizing start with
  | nil => simp [positionsOf]
  | cons r rs ih =>
    obtain ⟨hr, hrs⟩ := List.forall_mem_cons.1 hrs
    have hwidth : r.schema.width ≠ 0 := fun h => hr (List.length_eq_zero_iff.1 h)
    rw [List.flatMap_cons, positionsOf_append, List.append_eq_nil_iff, ih hrs,
      positionsOf_labels, List.forall_mem_cons]
    refine and_congr_left fun _ => ?_
    split <;> simp_all

/-- The elements at consecutive positions are a part of the list. -/
theorem map_range'_getD {xs part rest : List α} {start : Nat} (h : xs.drop start = part ++ rest)
    (d : α) : (List.range' start part.length).map (fun i => xs[i]?.getD d) = part := by
  refine List.ext_getElem (by simp) fun i hi hpart => ?_
  have hget : xs[start + i]? = part[i]? := by
    rw [← List.getElem?_drop, h, List.getElem?_append_left hpart]
  simp [hget, List.getElem?_eq_getElem hpart]

/-- **What stands at the positions** that `u.*` shows, in a list made of parts for the tables, are
the parts for the tables that it shows. -/
theorem map_positionsOf {parts : List (List α)} (h : Fit rs parts) (d : α) :
    (positionsOf u 0 (rs.flatMap (·.schema.labels))).map (fun i => parts.flatten[i]?.getD d) =
      (starred u rs parts).flatten := by
  have hfrom : ∀ {xs : List α} {start : Nat}, xs.drop start = parts.flatten →
      (positionsOf u start (rs.flatMap (·.schema.labels))).map (fun i => xs[i]?.getD d) =
        (starred u rs parts).flatten := by
    induction h with
    | nil => exact fun _ => rfl
    | @cons r part rs parts hpart _ ih =>
      intro xs start hxs
      rw [List.flatten_cons] at hxs
      have hrest : xs.drop (start + r.schema.labels.length) = parts.flatten := by
        rw [r.schema.length_labels, ← List.drop_drop, hxs, List.drop_left' hpart]
      rw [List.flatMap_cons, positionsOf_append, List.map_append, ih hrest, positionsOf_labels,
        Relation.starred_cons]
      split
      · rw [← hpart, map_range'_getD hxs, List.flatten_cons]
      · rfl
  exact hfrom rfl

/-! ## The star of one table -/

/-- What `u.*` shows of rows that are made of parts for some tables. -/
def starOf (s : Rowset) (u : String) (rs : List Relation) : Except Error Rowset :=
  if ∀ r ∈ rs, ¬r.Starred u then .error (.schema (.tableNotInQuery u))
  else .ok ⟨(starred u rs rs).flatMap (·.schema.labels.map labelColumn),
    s.rows.map fun row => (starred u rs (Relation.cut rs row)).flatten⟩

/-- **`u.*` shows the tables whose labels name it**, and is refused where there is none. -/
theorem project_allOf (h : s.InParts rs) (hrs : ∀ r ∈ rs, r.rowset.Rectangular)
    (hcolumns : ∀ r ∈ rs, r.schema.columns ≠ []) : s.project [.allOf u] = s.starOf u rs := by
  have hnames : (positionsOf u 0 s.columns).map (fun i => labelColumn (s.columns[i]?.getD "")) =
      (starred u rs rs).flatMap (·.schema.labels.map labelColumn) := by
    have hpicked := map_positionsOf (u := u) (Relation.fit_labels rs) ""
    rw [Relation.starred_map, ← List.flatMap_def, ← List.flatMap_def, ← h.columns] at hpicked
    rw [← List.map_flatMap, ← hpicked, List.map_map]
    rfl
  have hrows : (s.rows.map fun row => (positionsOf u 0 s.columns).map
      fun i => Relation.valueAt i row) =
        s.rows.map fun row => (starred u rs (Relation.cut rs row)).flatten := by
    refine List.map_congr_left fun row hrow => ?_
    obtain ⟨hparts, hrow⟩ := h.cut hrs row hrow
    rw [← map_positionsOf (Relation.fit_of_parts hrs hparts) .null, hrow, h.columns]
    rfl
  rw [starOf, project, List.mapM_cons, pick]
  by_cases hnone : ∀ r ∈ rs, ¬r.Starred u
  · rw [if_pos hnone, h.columns, (positionsOf_eq_nil hcolumns).2 hnone]
    rfl
  · rw [if_neg hnone, ← hnames, ← hrows]
    have hsome : positionsOf u 0 s.columns ≠ [] := by
      rw [h.columns]
      exact mt (positionsOf_eq_nil hcolumns).1 hnone
    cases hpositions : positionsOf u 0 s.columns with
    | nil => exact absurd hpositions hsome
    | cons i positions => simp [bind, Except.bind, pure, Except.pure]

/-! ## One table and no other -/

/-- The columns of a table are shown by their names where its name has no full stop. -/
theorem names_eq_iff {schema : Schema} (h : schema.columns ≠ []) :
    schema.labels.map labelColumn = schema.columns.map (·.name) ↔ '.' ∉ schema.name.toList := by
  rw [Schema.labels, List.map_map, List.map_inj_left]
  constructor
  · intro hall
    obtain ⟨c, hc⟩ := List.exists_mem_of_ne_nil _ h
    exact labelColumn_eq_iff.1 (hall c hc)
  · exact fun hstop c _ => labelColumn_of_not_mem hstop c.name

/-- Two tables of some have no more columns than all. -/
theorem width_add_le {r r' : Relation} (hr : r ∈ rs) (hr' : r' ∈ rs) (hne : r' ≠ r) :
    r.schema.width + r'.schema.width ≤ (rs.flatMap (·.schema.labels)).length := by
  have hone : ∀ rs' : List Relation, r' ∈ rs' →
      r'.schema.width ≤ (rs'.flatMap (·.schema.labels)).length := by
    intro rs' h
    have hmem : r'.schema.labels ∈ rs'.map (·.schema.labels) := List.mem_map_of_mem h
    have hsub := (List.sublist_flatten_of_mem hmem).length_le
    rwa [← List.flatMap_def, Schema.length_labels] at hsub
  obtain ⟨before, after, rfl⟩ := List.append_of_mem hr
  rw [List.flatMap_append, List.flatMap_cons, List.length_append, List.length_append,
    Schema.length_labels]
  rcases List.mem_append.1 hr' with hr' | hr'
  · have := hone before hr'
    omega
  · have := hone after ((List.mem_cons.1 hr').resolve_left hne)
    omega

section One

variable {i : Nat} {r : Relation} (hr : rs[i]? = some r) (hname : r.schema.name = u)

include hr hname

/-- Where `u` stands alone, `u.*` shows it. -/
theorem starOf_of_alone (hnodup : (rs.map (·.schema.name)).Nodup) (hstop : '.' ∉ u.toList)
    (halone : ∀ z, label u z ∉ rs.map (·.schema.name)) :
    s.starOf u rs = .ok ⟨r.schema.labels.map labelColumn,
      s.rows.map fun row => (Relation.cut rs row)[i]?.getD []⟩ := by
  have honly : ∀ j r', rs[j]? = some r' → (r'.Starred u ↔ j = i) := by
    intro j r' hj
    have hstar : r'.Starred u ↔ r'.schema.name = r.schema.name := by
      rw [Starred, upToStop_eq_iff, hname]
      constructor
      · rintro ⟨-, h | ⟨z, hz⟩⟩
        · exact h
        · exact absurd (List.mem_map.2 ⟨r', List.mem_of_getElem? hj, hz⟩) (halone z)
      · exact fun h => ⟨hstop, .inl h⟩
    rw [hstar]
    constructor
    · intro h
      have hlt : j < rs.length := (List.getElem?_eq_some_iff.1 hj).1
      refine (List.getElem?_inj (by simpa using hlt) hnodup).1 ?_
      rw [List.getElem?_map, List.getElem?_map, hj, hr, Option.map_some, Option.map_some, h]
    · rintro rfl
      rw [hj] at hr
      rw [Option.some.inj hr]
  have hsome : ¬∀ r ∈ rs, ¬r.Starred u :=
    fun h => h r (List.mem_of_getElem? hr) ((honly i r hr).2 rfl)
  have hrows : ∀ row : Row, (starred u rs (Relation.cut rs row)).flatten =
      (Relation.cut rs row)[i]?.getD [] := by
    intro row
    have hlength := Relation.length_cut rs row
    have hi : i < (Relation.cut rs row).length := hlength ▸ (List.getElem?_eq_some_iff.1 hr).1
    have hpart := List.getElem?_eq_getElem hi
    rw [Relation.starred_of_only hlength hpart honly, hpart]
    exact List.flatten_singleton
  rw [starOf, if_neg hsome, Relation.starred_of_only rfl hr honly, List.flatMap_singleton]
  simp only [hrows]

/-- Where it does not, `u.*` is refused or shows more columns. -/
theorem alone_of_starOf {shown : Rowset} (hcolumns : ∀ r ∈ rs, r.schema.columns ≠ [])
    (h : s.starOf u rs = .ok shown) (hwidth : shown.columns.length = r.schema.width) :
    '.' ∉ u.toList ∧ ∀ z, label u z ∉ rs.map (·.schema.name) := by
  unfold starOf at h
  split at h
  · cases h
  · rename_i hsome
    cases h
    have hstop : '.' ∉ u.toList := by
      by_contra hstop
      exact hsome fun r _ hstar => (upToStop_eq_iff.1 hstar).1 hstop
    refine ⟨hstop, fun z hz => ?_⟩
    -- A second table would have columns of its own among those that are shown.
    obtain ⟨r', hr', hlabel⟩ := List.mem_map.1 hz
    have hne : r' ≠ r := by
      rintro rfl
      exact label_ne_left (hlabel.symm.trans hname)
    have hshown : ∀ r₀ ∈ rs, r₀.Starred u → r₀ ∈ starred u rs rs := by
      intro r₀ hr₀ hstar
      rw [Relation.starred_self]
      exact List.mem_filter.2 ⟨hr₀, decide_eq_true hstar⟩
    have hfirst := hshown r (List.mem_of_getElem? hr) (upToStop_eq_iff.2 ⟨hstop, .inl hname⟩)
    have hsecond := hshown r' hr' (upToStop_eq_iff.2 ⟨hstop, .inr ⟨z, hlabel⟩⟩)
    have hwider := width_add_le hfirst hsecond hne
    have hpositive : r'.schema.width ≠ 0 :=
      fun h => hcolumns r' hr' (List.length_eq_zero_iff.1 h)
    rw [← List.map_flatMap, List.length_map] at hwidth
    omega

/-- **`u.*` shows the table `u` and nothing else**, its columns by their names and of every row the
part that belongs to it, exactly where `u` has no full stop in it and no table beside it has a name
that goes on behind `u` with one. -/
theorem starOf_eq_iff (hnodup : (rs.map (·.schema.name)).Nodup)
    (hcolumns : ∀ r ∈ rs, r.schema.columns ≠ []) :
    s.starOf u rs = .ok ⟨r.schema.columns.map (·.name),
        s.rows.map fun row => (Relation.cut rs row)[i]?.getD []⟩ ↔
      '.' ∉ u.toList ∧ ∀ z, label u z ∉ rs.map (·.schema.name) := by
  constructor
  · exact fun h => alone_of_starOf hr hname hcolumns h (List.length_map _)
  · rintro ⟨hstop, halone⟩
    rw [starOf_of_alone hr hname hnodup hstop halone,
      (names_eq_iff (hcolumns r (List.mem_of_getElem? hr))).2 (hname ▸ hstop)]

end One

/-- The star of a table by itself shows all its rows, and is refused if the name of the table has a
full stop in it. -/
theorem project_own {r : Relation} (hname : r.schema.name = u) (hr : r.rowset.Rectangular)
    (hcolumns : r.schema.columns ≠ []) : r.rowset.project [.allOf u] =
      if '.' ∈ u.toList then .error (.schema (.tableNotInQuery u))
      else .ok ⟨r.schema.labels.map labelColumn, r.scan.map (·.2)⟩ := by
  rw [project_allOf (inParts_rowset r) (by simpa using hr) (by simpa using hcolumns)]
  by_cases hstop : '.' ∈ u.toList
  · have hnone : ∀ r' ∈ [r], ¬r'.Starred u := fun _ _ h => (upToStop_eq_iff.1 h).1 hstop
    rw [if_pos hstop, starOf, if_pos hnone]
  · have halone : ∀ z, label u z ∉ [r].map (·.schema.name) := by
      intro z hz
      exact label_ne_left ((List.mem_singleton.1 hz).trans hname)
    have hrows : (r.rowset.rows.map fun row => (Relation.cut [r] row)[0]?.getD []) =
        r.rowset.rows := by
      refine (List.map_congr_left fun row hrow => ?_).trans (List.map_id _)
      have hwidth : row.length = r.schema.width := (hr row hrow).trans r.schema.length_labels
      show row.take r.schema.width = row
      rw [← hwidth, List.take_length]
    rw [if_neg hstop, starOf_of_alone (i := 0) rfl hname (by simp) hstop halone, hrows]
    rfl

/-! ## Several items -/

/-- Two sets of rows, row by row side by side. -/
def beside (a b : Rowset) : Rowset :=
  ⟨a.columns ++ b.columns, List.zipWith (· ++ ·) a.rows b.rows⟩

/-- Items are shown side by side, and the first that cannot be shown is refused. -/
theorem project_append (s : Rowset) (items items' : List SelectItem) :
    s.project (items ++ items') = (do
      let a ← s.project items
      let b ← s.project items'
      return a.beside b) := by
  have hrows : ∀ f g : Row → Row, List.zipWith (· ++ ·) (s.rows.map f) (s.rows.map g) =
      s.rows.map fun row => f row ++ g row := by
    intro f g
    rw [List.zipWith_map, List.zipWith_self]
  simp only [project, List.mapM_append, bind_assoc, pure_bind]
  refine bind_congr fun picked => bind_congr fun picked' => ?_
  simp only [beside, List.flatten_append, List.map_append, hrows]

/-- An item stands between those before it and those behind it. -/
theorem project_between (s : Rowset) (before after : List SelectItem) (item : SelectItem) :
    s.project (before ++ item :: after) = (do
      let a ← s.project before
      let one ← s.project [item]
      let b ← s.project after
      return a.beside (one.beside b)) := by
  rw [project_append, ← List.singleton_append, project_append]
  simp only [bind_assoc, pure_bind]

end Rowset
end MiniSql
