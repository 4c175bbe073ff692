/-
# When labels are spelled alike

A label is the name of a table, a full stop and the name of a column, and names are any texts. So
one label may be that of two columns, where a name has a full stop in it (`label_eq_iff`), and a
label may end in a full stop and a name that is not that of its column (`endsIn_label_iff`).

What is read off a label goes up to its first full stop, or begins behind it. For the table `a.b`
with the column `c` that is `a` and `b.c`.

| read off `label table column` | `table` without a full stop | `table` with one |
| --- | --- | --- |
| table | `table` | what stands before the first |
| column | `column` | what stands behind it, a full stop and `column` |
-/

import MiniSql.Reference.Resolve
import Mathlib.Data.List.TakeWhile

namespace MiniSql

/-! ## Labels that are equal -/

/-- A label is the table, a full stop and the column. -/
theorem toList_label (table column : String) :
    (label table column).toList = table.toList ++ '.' :: column.toList := by
  simp [label]

/-- One list is split at a mark in two ways: at one place, or at one before the other. -/
theorem append_cons_eq_iff {α : Type} {mark : α} {a b c d : List α} :
    a ++ mark :: b = c ++ mark :: d ↔
      a = c ∧ b = d ∨ (∃ z, c = a ++ mark :: z ∧ b = z ++ mark :: d) ∨
        ∃ z, a = c ++ mark :: z ∧ d = z ++ mark :: b := by
  constructor
  · intro h
    rcases List.append_eq_append_iff.1 h with ⟨z, hc, hb⟩ | ⟨z, ha, hd⟩
    · cases z with
      | nil =>
        refine .inl ⟨by simpa using hc.symm, ?_⟩
        exact (List.cons.inj hb).2
      | cons x z =>
        obtain ⟨rfl, htail⟩ := List.cons.inj hb
        exact .inr (.inl ⟨z, hc, htail⟩)
    · cases z with
      | nil =>
        refine .inl ⟨by simpa using ha, ?_⟩
        exact (List.cons.inj hd).2.symm
      | cons x z =>
        obtain ⟨rfl, htail⟩ := List.cons.inj hd
        exact .inr (.inr ⟨z, ha, htail⟩)
  · rintro (⟨rfl, rfl⟩ | ⟨z, rfl, rfl⟩ | ⟨z, rfl, rfl⟩) <;> simp

/-- A text is a label exactly if it reads so. -/
theorem eq_label_iff {l table column : String} :
    l = label table column ↔ l.toList = table.toList ++ '.' :: column.toList := by
  rw [← toList_label, String.toList_inj]

/-- A full stop within a name, between what is a table and what is a column. -/
theorem exists_label_iff {table table' column column' : String} :
    (∃ z, table'.toList = table.toList ++ '.' :: z ∧ column.toList = z ++ '.' :: column'.toList) ↔
      ∃ z, table' = label table z ∧ column = label z column' := by
  constructor
  · rintro ⟨z, htable, hcolumn⟩
    exact ⟨String.ofList z, eq_label_iff.2 (by simpa using htable),
      eq_label_iff.2 (by simpa using hcolumn)⟩
  · rintro ⟨z, rfl, rfl⟩
    exact ⟨z.toList, toList_label _ _, toList_label _ _⟩

/-- **Labels are equal** for the same names, or where a full stop within a name is taken for the one
between table and column. -/
theorem label_eq_iff {table table' column column' : String} :
    label table column = label table' column' ↔
      table = table' ∧ column = column' ∨
        (∃ z, table' = label table z ∧ column = label z column') ∨
          ∃ z, table = label table' z ∧ column' = label z column := by
  rw [eq_label_iff, toList_label, append_cons_eq_iff, String.toList_inj, String.toList_inj,
    exists_label_iff, exists_label_iff]

/-- **A label ends in a full stop and a name** if this is the name of the column, or the end of it
behind a full stop, or if it reaches into the table behind a full stop there. -/
theorem endsIn_label_iff {name table column : String} :
    ('.' :: name.toList) <:+ (label table column).toList ↔
      name = column ∨ (∃ before, column = label before name) ∨
        ∃ before z, table = label before z ∧ name = label z column := by
  constructor
  · rintro ⟨before, h⟩
    have hlabel : label (String.ofList before) name = label table column := by
      rw [← String.toList_inj, toList_label, ← h]
      simp
    rcases label_eq_iff.1 hlabel with ⟨-, hname⟩ | ⟨z, htable, hname⟩ | ⟨z, -, hcolumn⟩
    · exact .inl hname
    · exact .inr (.inr ⟨_, z, htable, hname⟩)
    · exact .inr (.inl ⟨z, hcolumn⟩)
  · have hend : ∀ before, ('.' :: name.toList) <:+ (label before name).toList :=
      fun before => ⟨before.toList, (toList_label before name).symm⟩
    rintro (rfl | ⟨before, rfl⟩ | ⟨before, z, rfl, rfl⟩)
    · exact hend table
    · rw [toList_label]
      exact ((hend before).trans (List.suffix_cons _ _)).trans (List.suffix_append _ _)
    · have hsame : label (label before z) column = label before (label z column) :=
        label_eq_iff.2 (.inr (.inr ⟨z, rfl, rfl⟩))
      rw [hsame]
      exact hend before

/-- A label is longer than its column. -/
theorem label_ne_right {table column : String} : label table column ≠ column := by
  intro h
  have hlength := congrArg (fun s => s.toList.length) h
  simp only [toList_label, List.length_append, List.length_cons] at hlength
  omega

/-- A label is longer than its table. -/
theorem label_ne_left {table column : String} : label table column ≠ table := by
  intro h
  have hlength := congrArg (fun s => s.toList.length) h
  simp only [toList_label, List.length_append, List.length_cons] at hlength
  omega

/-- There is a full stop in every label. -/
theorem stop_mem_label (table column : String) : '.' ∈ (label table column).toList := by
  rw [toList_label]
  exact List.mem_append_right _ List.mem_cons_self

/-! ## What is read off a label -/

/-- What stands before the first full stop. -/
def upToStop (table : String) : String := String.ofList (table.toList.takeWhile (· != '.'))

/-- What stands before the first full stop has none. -/
theorem stop_not_mem_upToStop (table : String) : '.' ∉ (upToStop table).toList := by
  rw [upToStop, String.toList_ofList]
  intro h
  have hstop := List.mem_takeWhile_imp h
  simp at hstop

/-- A name without full stops is all before the first one. -/
theorem upToStop_eq_self_iff {table : String} : upToStop table = table ↔ '.' ∉ table.toList := by
  constructor
  · intro h
    rw [← h]
    exact stop_not_mem_upToStop table
  · intro h
    rw [upToStop, List.takeWhile_eq_self_iff.2, String.ofList_toList]
    intro x hx
    rw [bne_iff_ne]
    rintro rfl
    exact h hx

/-- A text with a full stop goes on behind the first one. -/
theorem exists_eq_label {table : String} (h : '.' ∈ table.toList) :
    ∃ z, table = label (upToStop table) z := by
  have hsplit := List.takeWhile_append_dropWhile (p := (· != '.')) (l := table.toList)
  cases hrest : table.toList.dropWhile (· != '.') with
  | nil =>
    rw [hrest, List.append_nil, List.takeWhile_eq_self_iff] at hsplit
    have hstop := hsplit '.' h
    simp at hstop
  | cons x z =>
    have hx : x = '.' := by
      have hfirst := List.head?_dropWhile_not (· != '.') table.toList
      rw [hrest] at hfirst
      simpa using hfirst
    subst hx
    rw [hrest] at hsplit
    refine ⟨String.ofList z, eq_label_iff.2 ?_⟩
    rw [upToStop, String.toList_ofList, String.toList_ofList]
    exact hsplit.symm

/-- A table without full stops ends at the first one of its labels. -/
theorem takeWhile_label {table : String} (h : '.' ∉ table.toList) (column : String) :
    (label table column).toList.takeWhile (· != '.') = table.toList ∧
      (label table column).toList.dropWhile (· != '.') = '.' :: column.toList := by
  have hall : ∀ x ∈ table.toList, (x != '.') = true := by
    intro x hx
    rw [bne_iff_ne]
    rintro rfl
    exact h hx
  rw [toList_label, List.takeWhile_append_of_pos hall, List.dropWhile_append_of_pos hall]
  simp

/-- A name without a full stop is what stands before the first one of the names that it begins. -/
theorem upToStop_label {table : String} (h : '.' ∉ table.toList) (column : String) :
    upToStop (label table column) = table := by
  rw [upToStop, (takeWhile_label h column).1, String.ofList_toList]

/-- A name without full stops stands before the first one of itself and of the labels that it begins,
and of no other name. -/
theorem upToStop_eq_iff {table u : String} : upToStop table = u ↔
    '.' ∉ u.toList ∧ (table = u ∨ ∃ z, table = label u z) := by
  constructor
  · rintro rfl
    refine ⟨stop_not_mem_upToStop table, ?_⟩
    by_cases h : '.' ∈ table.toList
    · exact .inr (exists_eq_label h)
    · exact .inl (upToStop_eq_self_iff.2 h).symm
  · rintro ⟨h, rfl | ⟨z, rfl⟩⟩
    · exact upToStop_eq_self_iff.2 h
    · exact upToStop_label h z

/-- A label of a table with a full stop is that of a table without one. -/
theorem exists_label_eq {table : String} (h : '.' ∈ table.toList) :
    ∃ z, ∀ column, label table column = label (upToStop table) (label z column) := by
  obtain ⟨z, hz⟩ := exists_eq_label h
  exact ⟨z, fun column => label_eq_iff.2 (.inr (.inr ⟨z, hz, rfl⟩))⟩

/-- **The table of a label** is what stands before the first full stop of the table. -/
theorem labelTable_label (table column : String) :
    labelTable (label table column) = upToStop table := by
  rw [labelTable, if_pos (by simpa using stop_mem_label table column)]
  by_cases h : '.' ∈ table.toList
  · obtain ⟨z, hsame⟩ := exists_label_eq h
    rw [hsame, (takeWhile_label (stop_not_mem_upToStop table) _).1, String.ofList_toList]
  · rw [(takeWhile_label h column).1, String.ofList_toList, upToStop_eq_self_iff.2 h]

/-- The column of a label is found where the table has no full stop. -/
theorem labelColumn_of_not_mem {table : String} (h : '.' ∉ table.toList) (column : String) :
    labelColumn (label table column) = column := by
  rw [labelColumn, if_pos (by simpa using stop_mem_label table column),
    (takeWhile_label h column).2, List.drop_one, List.tail_cons, String.ofList_toList]

/-- **The column of a label** is that of the column where its table has no full stop. -/
theorem labelColumn_eq_iff {table column : String} :
    labelColumn (label table column) = column ↔ '.' ∉ table.toList := by
  constructor
  · intro heq h
    obtain ⟨z, hsame⟩ := exists_label_eq h
    rw [hsame, labelColumn_of_not_mem (stop_not_mem_upToStop table)] at heq
    exact label_ne_right heq
  · exact fun h => labelColumn_of_not_mem h column

end MiniSql
