/-
# Aligning a tuple

The values of a tuple are lined up with the columns: by the names before them, or by position, with
one for every column or only for those that are not autoincrement. What is lined up is the same
row.

| form | theorem |
| --- | --- |
| names and values in another order | `Mutation.align_perm` |
| nothing for a column, and the column left out | `Mutation.align_default` |
| all columns by position, and all named | `Mutation.align_all` |
| the columns that are not autoincrement by position, and these named | `Mutation.align_short` |

The first are the same where both are accepted, and are refused together; of the others both are
refused for the same reason.
-/

import MiniSql.Proofs.Store.Assignments

namespace MiniSql

namespace Mutation

variable {s : Schema} {row row' : List (Option Value)} {seen seen' : List String} {name : String}
  {v : Option Value} {pairs pairs' : List (String × Option Value)} {columns columns' : List String}
  {values values' : List (Option Value)} {keep : Column → Bool} {c : Column} {i : Nat}

/-! ## Named columns in any order -/

/-- Values are placed one after the other, each in a column of its own. -/
theorem place_cons_eq_ok : place s row seen ((name, v) :: pairs) = .ok row' ↔
    name ∉ seen ∧ ∃ i, s.columnIndex name = .ok i ∧
      place s (row.set i v) (name :: seen) pairs = .ok row' := by
  rw [place]
  split
  · rename_i hseen
    exact iff_of_false (fun h => nomatch h) fun h => h.1 hseen
  · rename_i hseen
    rw [Except.bind_eq_ok]
    exact (and_iff_right hseen).symm

/-- Only the names that are still to come matter among those that are taken. -/
theorem place_congr (h : ∀ p ∈ pairs, p.1 ∈ seen ↔ p.1 ∈ seen') :
    place s row seen pairs = place s row seen' pairs := by
  induction pairs generalizing row seen seen' with
  | nil => rfl
  | cons p pairs ih =>
    obtain ⟨hp, h⟩ := List.forall_mem_cons.1 h
    rw [place, place, if_congr hp rfl rfl]
    have hrest {row : List (Option Value)} :
        place s row (p.1 :: seen) pairs = place s row (p.1 :: seen') pairs :=
      ih fun q hq => by rw [List.mem_cons, List.mem_cons, h q hq]
    simp only [hrest]

/-- Different columns have different positions. -/
theorem columnIndex_ne {name' : String} {j : Nat} (h : name ≠ name')
    (hi : s.columnIndex name = .ok i) (hj : s.columnIndex name' = .ok j) : i ≠ j := by
  rintro rfl
  obtain ⟨c, hc, rfl⟩ := columnIndex_name hi
  obtain ⟨c', hc', rfl⟩ := columnIndex_name hj
  exact h (by rw [Option.some.inj (hc.symm.trans hc')])

/-- Two values are put into different columns, so the second may be put first. -/
theorem place_swap {p q : String × Option Value}
    (h : place s row seen (p :: q :: pairs) = .ok row') :
    place s row seen (q :: p :: pairs) = .ok row' := by
  obtain ⟨hp, i, hi, h⟩ := place_cons_eq_ok.1 h
  obtain ⟨hq, j, hj, h⟩ := place_cons_eq_ok.1 h
  rw [List.mem_cons, not_or] at hq
  have hne : i ≠ j := columnIndex_ne (Ne.symm hq.1) hi hj
  refine place_cons_eq_ok.2 ⟨hq.2, j, hj, place_cons_eq_ok.2 ⟨?_, i, hi, ?_⟩⟩
  · exact List.not_mem_cons_of_ne_of_not_mem (Ne.symm hq.1) hp
  · rw [List.set_comm _ _ hne.symm, ← h]
    exact place_congr fun _ _ => by simp only [List.mem_cons, or_left_comm]

/-- **Named columns may come in any order.** -/
theorem place_perm (h : pairs'.Perm pairs) :
    Except.Concur (place s row seen pairs') (place s row seen pairs) := by
  induction h generalizing row seen with
  | nil => exact fun _ => Iff.rfl
  | cons p _ ih =>
    intro row'
    rw [place_cons_eq_ok, place_cons_eq_ok]
    exact and_congr_right fun _ => exists_congr fun i => and_congr_right fun _ => ih row'
  | swap p q pairs => exact fun _ => ⟨place_swap, place_swap⟩
  | trans _ _ ih ih' => exact fun row' => (ih row').trans (ih' row')

/-- Values with named columns are placed by the names. -/
theorem align_named (hne : columns ≠ []) (hlength : columns.length = values.length) :
    align s columns values = place s (List.replicate s.width none) [] (columns.zip values) := by
  rw [align, if_neg (by simpa using hne), if_neg (not_not.2 hlength)]

/-- **Names and values in another order** are aligned as the same row, or refused too. -/
theorem align_perm (hlength : columns.length = values.length)
    (hlength' : columns'.length = values'.length)
    (h : (columns'.zip values').Perm (columns.zip values)) :
    Except.Concur (align s columns' values') (align s columns values) := by
  have hsame : columns'.length = columns.length := by
    have h := h.length_eq
    rwa [List.length_zip, List.length_zip, ← hlength, ← hlength', min_self, min_self] at h
  cases columns with
  | nil =>
    obtain rfl : columns' = [] := List.length_eq_zero_iff.1 hsame
    rw [List.length_eq_zero_iff.1 hlength.symm, List.length_eq_zero_iff.1 hlength'.symm]
    exact fun _ => Iff.rfl
  | cons name columns =>
    cases columns' with
    | nil => cases hsame
    | cons name' columns' =>
      rw [align_named (List.cons_ne_nil _ _) hlength, align_named (List.cons_ne_nil _ _) hlength']
      exact place_perm h

/-! ## `DEFAULT` -/

/-- A column that is given nothing may as well not be named. -/
theorem place_default (hi : s.columnIndex name = .ok i) (hrow : row[i]? = some none)
    (hseen : name ∉ seen) (h : ∀ p ∈ pairs ++ pairs', p.1 ≠ name) :
    place s row seen (pairs ++ (name, none) :: pairs') = place s row seen (pairs ++ pairs') := by
  induction pairs generalizing row seen with
  | nil =>
    have hset : row.set i none = row := by
      obtain ⟨hlt, hnone⟩ := List.getElem?_eq_some_iff.1 hrow
      rw [← hnone, List.set_getElem_self]
    rw [List.nil_append, place, if_neg hseen, hi]
    show place s (row.set i none) (name :: seen) pairs' = _
    rw [hset]
    exact place_congr fun p hp => by simp [h p hp]
  | cons p pairs ih =>
    obtain ⟨hp, h⟩ := List.forall_mem_cons.1 h
    rw [List.cons_append, List.cons_append, place, place]
    refine if_congr Iff.rfl rfl ?_
    cases hj : s.columnIndex p.1 with
    | error e => rfl
    | ok j =>
      refine ih ?_ (List.not_mem_cons_of_ne_of_not_mem hp.symm hseen) h
      rw [List.getElem?_set_ne (columnIndex_ne hp hj hi)]
      exact hrow

/-- **A column that is given `DEFAULT`** is aligned as if it were left out. -/
theorem align_default (hs : (s.columns.map (·.name)).Nodup) (hc : c ∈ s.columns)
    (hne : columns ++ columns' ≠ []) (h : c.name ∉ columns ++ columns')
    (hlength : columns.length = values.length) (hlength' : columns'.length = values'.length) :
    align s (columns ++ c.name :: columns') (values ++ none :: values') =
      align s (columns ++ columns') (values ++ values') := by
  obtain ⟨i, hi, rfl⟩ := List.mem_iff_getElem.1 hc
  have hindex := columnIndex_eq hs (List.getElem?_eq_getElem hi)
  rw [align_named (by simp) (by simp [hlength, hlength']),
    align_named hne (by simp [hlength, hlength']), List.zip_append hlength, List.zip_append hlength]
  refine place_default hindex ?_ List.not_mem_nil fun p hp heq => h ?_
  · exact List.getElem?_replicate_of_lt hi
  · have hp : p ∈ (columns ++ columns').zip (values ++ values') := List.zip_append hlength ▸ hp
    exact heq ▸ (List.of_mem_zip hp).1

/-! ## Columns in the order of the schema -/

/-- Values for the columns that are kept, with nothing for the others. -/
def scatter (keep : Column → Bool) : List Column → List (Option Value) → List (Option Value)
  | [], _ => []
  | c :: columns, values =>
    if keep c then values.head?.join :: scatter keep columns values.tail
    else none :: scatter keep columns values

/-- Values without names go to the columns that are not numbered. -/
theorem spread_eq_scatter (columns : List Column) (values : List (Option Value)) :
    spread columns values = scatter (fun c => !c.autoincrement) columns values := by
  induction columns generalizing values with
  | nil => rfl
  | cons c columns ih => cases hauto : c.autoincrement <;> simp [spread, scatter, hauto, ih]

/-- Values for all columns go to each of them. -/
theorem scatter_all {columns : List Column} (h : values.length = columns.length) :
    scatter (fun _ => true) columns values = values := by
  induction columns generalizing values with
  | nil => exact (List.length_eq_zero_iff.1 h).symm
  | cons c columns ih =>
    cases values with
    | nil => cases h
    | cons v values => exact congrArg (v :: ·) (ih (Nat.succ.inj h))

/-- The columns that are kept, named in the order of the schema. The row is filled from the left:
`before` have their slots, and the names that are taken are among theirs. -/
theorem place_scatter {before rest : List Column} {filled : List (Option Value)}
    (hs : (s.columns.map (·.name)).Nodup) (hcolumns : s.columns = before ++ rest)
    (hfilled : filled.length = before.length) (hseen : ∀ name ∈ seen, name ∈ before.map (·.name))
    (hlength : values.length = (rest.filter keep).length) :
    place s (filled ++ List.replicate rest.length none) seen
      (((rest.filter keep).map (·.name)).zip values) =
        .ok (filled ++ scatter keep rest values) := by
  induction rest generalizing before filled seen values with
  | nil => rfl
  | cons c rest ih =>
    have hcolumns' : s.columns = (before ++ [c]) ++ rest := by
      rw [hcolumns, List.append_assoc, List.singleton_append]
    have hseen' : ∀ name ∈ seen, name ∈ (before ++ [c]).map (·.name) := fun name hname => by
      rw [List.map_append]
      exact List.mem_append_left _ (hseen name hname)
    rw [scatter, List.length_cons, List.replicate_succ]
    cases hkeep : keep c with
    | false =>
      rw [List.filter_cons_of_neg (by simp [hkeep])] at hlength ⊢
      have hrest : place s ((filled ++ [none]) ++ List.replicate rest.length none) seen
          (((rest.filter keep).map (·.name)).zip values) =
            .ok ((filled ++ [none]) ++ scatter keep rest values) :=
        ih hcolumns' (by simp [hfilled]) hseen' hlength
      rw [List.append_assoc, List.append_assoc] at hrest
      exact hrest
    | true =>
      rw [List.filter_cons_of_pos hkeep] at hlength ⊢
      obtain ⟨v, values, rfl⟩ := List.exists_cons_of_length_eq_add_one hlength
      have hc : s.columns[filled.length]? = some c := by
        rw [hcolumns, hfilled, List.getElem?_append_right (Nat.le_refl _), Nat.sub_self]
        rfl
      -- Its name is not taken, since it differs from those before.
      have hnew : c.name ∉ seen := fun hmem => by
        rw [hcolumns, List.map_append, List.nodup_append] at hs
        exact hs.2.2 _ (hseen _ hmem) _ List.mem_cons_self rfl
      have hrest : place s ((filled ++ [v]) ++ List.replicate rest.length none) (c.name :: seen)
          (((rest.filter keep).map (·.name)).zip values) =
            .ok ((filled ++ [v]) ++ scatter keep rest values) :=
        ih hcolumns' (by simp [hfilled]) (List.forall_mem_cons.2 ⟨by simp, hseen'⟩)
          (Nat.succ.inj hlength)
      refine place_cons_eq_ok.2 ⟨hnew, _, columnIndex_eq hs hc, ?_⟩
      rw [List.set_append_right _ _ (Nat.le_refl _), Nat.sub_self, List.set_cons_zero]
      rw [List.append_assoc, List.append_assoc] at hrest
      exact hrest

/-- Columns that are named in the order of the schema have their values, the others nothing. -/
theorem align_scatter (hs : (s.columns.map (·.name)).Nodup) (hne : s.columns.filter keep ≠ [])
    (hlength : values.length = (s.columns.filter keep).length) :
    align s ((s.columns.filter keep).map (·.name)) values =
      .ok (scatter keep s.columns values) := by
  rw [align_named (by simpa using hne) (by simp [hlength])]
  have hnothing : ∀ name ∈ ([] : List String), name ∈ ([] : List Column).map (·.name) :=
    fun _ h => nomatch h
  exact place_scatter hs (List.nil_append _).symm (List.length_nil (α := Option Value)) hnothing
    hlength

/-- **All columns by position** are aligned as all columns by name. -/
theorem align_all (hs : (s.columns.map (·.name)).Nodup) (hne : s.columns ≠ [])
    (hlength : values.length = s.width) :
    align s (s.columns.map (·.name)) values = align s [] values := by
  have hall : s.columns.filter (fun _ => true) = s.columns := List.filter_true _
  have hnamed : align s ((s.columns.filter fun _ => true).map (·.name)) values =
      .ok (scatter (fun _ => true) s.columns values) :=
    align_scatter hs (by rwa [hall]) (by rw [hall]; exact hlength)
  rw [hall] at hnamed
  rw [hnamed, scatter_all hlength]
  exact (if_pos hlength).symm

/-- **The columns that are not autoincrement** by position are aligned as by name. -/
theorem align_short (hs : (s.columns.map (·.name)).Nodup)
    (hauto : 0 < s.columns.countP (·.autoincrement))
    (hlength : values.length = (s.columns.filter fun c => !c.autoincrement).length) :
    align s ((s.columns.filter fun c => !c.autoincrement).map (·.name)) values =
      align s [] values := by
  by_cases hne : s.columns.filter (fun c => !c.autoincrement) = []
  · rw [hne]
    rfl
  · rw [align_scatter hs hne hlength, ← spread_eq_scatter]
    have hwidth : values.length + s.columns.countP (·.autoincrement) = s.width := by
      rw [hlength, ← List.countP_eq_length_filter, Schema.width,
        List.length_eq_countP_add_countP (·.autoincrement)]
      simp [Nat.add_comm]
    show _ = alignAll s values
    rw [alignAll, if_neg (by omega), if_pos ⟨hauto, hwidth⟩]

end Mutation
end MiniSql
