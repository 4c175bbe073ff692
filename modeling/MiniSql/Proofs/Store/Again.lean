/-
# Storing rows again

What a row holds passes every check again: a column stores the value that it holds as that value
(`Column.Holds.stores`), and the keys of all rows are as distinct as they were, or new stamps, which
are distinct too (`Relation.checkUnique_again`). So an `UPDATE` that assigns a column to itself is
never refused, and it finds every row.

| part of the table | after the update |
| --- | --- |
| the ids and their order, the next id, the next number | as before |
| a column that is not stamped, the assigned one among them | as before |
| a column that is stamped | the next readings of the clock, row by row |

The assigned column may be the primary key, and the primary key may be a column that is stamped.
-/

import MiniSql.Proofs.Store.Assignments

namespace MiniSql

open Timed
open MiniSql.Relation (valueAt)

/-! ## Cells -/

namespace Column

variable {c : Column} {v w : Value}

/-- The cell of a row that is stored again: a stamp if the column is stamped, and otherwise what it
was. -/
def Keeps (c : Column) (v w : Value) : Prop :=
  if c.onUpdate then ∃ i, w = .timestamp i else w = v

/-- What a column holds it stores as it is. -/
theorem Holds.stores (h : c.Holds v) : c.Stores v v := ⟨Value.coerce_of_type h.1, h.2⟩

/-- A value that fits its column is kept unless it is stamped. -/
theorem Restamps.keeps (h : c.Restamps v w) (hv : c.Holds v) : c.Keeps v w := by
  unfold Keeps
  cases h with
  | kept hc hw =>
    rw [if_neg (by simp [hc])]
    exact Except.ok.inj (hw.1.symm.trans hv.stores.1)
  | stamped hc _ i => exact if_pos hc ▸ ⟨i, rfl⟩

end Column

namespace Cells

variable {columns : List Column} {row stored : Row} {i : Nat} {c : Column}

/-- The values of a row that fit their columns are kept unless they are stamped. -/
theorem keeps (h : Cells Column.Restamps columns row stored)
    (hrow : List.Forall₂ Column.Holds columns row) : Cells Column.Keeps columns row stored := by
  induction h with
  | nil => exact .nil
  | cons hcell _ ih =>
    cases hrow with
    | cons hv hrow => exact .cons (hcell.keeps hv) (ih hrow)

/-- A column that is not stamped has what it had. -/
theorem valueAt_eq (h : Cells Column.Keeps columns row stored) (hi : columns[i]? = some c)
    (hc : c.onUpdate = false) : valueAt i stored = valueAt i row := by
  induction h generalizing i with
  | nil => simp at hi
  | cons hcell _ ih =>
    cases i with
    | zero =>
      obtain rfl := Option.some.inj hi
      rw [Column.Keeps, if_neg (by simp [hc])] at hcell
      exact hcell
    | succ i => exact ih hi

end Cells

/-- No reading of the clock comes twice. -/
theorem Readings.nodup {t t' : Time.Clock} {vs : List Value} (h : Readings t vs t') : vs.Nodup := by
  obtain ⟨instants, rfl, hpairs, -⟩ := h.ascend
  refine List.Pairwise.map _ (fun i j hne heq => hne (Value.timestamp.inj heq))
    (hpairs.imp Time.Instant.Earlier.ne)

/-! ## Tables -/

namespace Relation

variable {r r' : Relation} {t t' : Time.Clock} {stored : List (Nat × Row)} {i : Nat}
  {c : Column}

/-- The second relation is the first with new stamps and nothing else changed. -/
structure Refreshes (r : Relation) (t : Time.Clock) (r' : Relation) (t' : Time.Clock) : Prop where
  schema : r'.schema = r.schema
  nextId : r'.nextId = r.nextId
  nextNumber : r'.nextNumber = r.nextNumber
  /-- Every row stands in its place under its id, and has what it had apart from its stamps. -/
  rows : List.Forall₂ (fun e d => d.1 = e.1 ∧ Cells Column.Keeps r.schema.columns e.2 d.2)
    r.scan r'.scan
  /-- The stamps are the next readings of the clock, which is read for nothing else. -/
  stamps : Readings t (r'.scan.flatMap fun d => stampsOf r.schema.columns d.2) t'

/-- The stamps of one column are among those of the rows. -/
theorem sublist_stampsOf (hstored : ∀ d ∈ stored, d.2.length = r.schema.columns.length)
    (hi : r.schema.columns[i]? = some c) (hc : c.onUpdate = true) :
    (stored.map fun d => valueAt i d.2).Sublist
      (stored.flatMap fun d => stampsOf r.schema.columns d.2) := by
  induction stored with
  | nil => exact .slnil
  | cons d stored ih =>
    obtain ⟨hd, hstored⟩ := List.forall_mem_cons.1 hstored
    rw [List.map_cons, List.flatMap_cons, ← List.singleton_append]
    exact (List.singleton_sublist.2 (valueAt_mem_stampsOf hd hi hc)).append (ih hstored)

/-- Rows that are stored again keep what they hold. -/
theorem Replaces.keeps {s : Schema} {changes : List (Nat × Row)}
    (h : Replaces s t changes stored t') (hs : ∀ e ∈ changes, s.Holds e.2) :
    List.Forall₂ (fun e d => d.1 = e.1 ∧ Cells Column.Keeps s.columns e.2 d.2) changes stored := by
  have hrows := h.rows
  clear h
  induction hrows with
  | nil => exact .nil
  | cons hd _ ih =>
    obtain ⟨he, hs⟩ := List.forall_mem_cons.1 hs
    exact .cons ⟨hd.1, hd.2.keeps he⟩ (ih hs)

/-- Rows that have been read are kept as they are when they are stored again. -/
theorem Replaces.map_keptAt (h : Replaces r.schema t r.scan stored t') :
    stored.map keptAt = stored :=
  (h.keepAll_kept (fun _ he => List.mem_map_of_mem he) fun _ he => kept_of_mem_scan he).trans
    (List.map_id' stored)

/-- **The keys pass again**, whether they are kept or stamped. -/
theorem checkUnique_again (hr : r.WellTyped) (hkeys : r.KeysDistinct)
    (h : Replaces r.schema t r.scan stored t') :
    r.checkUnique (stored.map (·.2)) (stored.map (·.1)) = .ok () := by
  rw [checkUnique_eq_ok, ← map_snd_keptAt, h.map_keptAt]
  intro key hkey
  obtain ⟨c, hc, -⟩ := hr.schema.key hkey
  have hkeeps := h.keeps hr.rows
  constructor
  · rw [List.map_map]
    cases hstamped : c.onUpdate with
    | true =>
      have hlength : ∀ d ∈ stored, d.2.length = r.schema.columns.length := by
        intro d hd
        obtain ⟨e, -, -, hcells⟩ := exists_mem_of_forall₂ hkeeps hd
        exact hcells.length.2
      exact h.stamps.nodup.sublist (sublist_stampsOf hlength hc hstamped)
    | false =>
      have hsame : List.Forall₂ (· = ·) (r.scan.map fun e => valueAt key e.2)
          (stored.map fun d => valueAt key d.2) :=
        List.forall₂_map_left_iff.2 <| List.forall₂_map_right_iff.2 <|
          hkeeps.imp fun _ _ h => (h.2.valueAt_eq hc hstamped).symm
      rw [List.forall₂_eq_eq_eq] at hsame
      exact hsame ▸ (hkeys key hkey).nodup nodup_ids
  · intro row _ e he hnot
    rw [h.ids] at hnot
    exact absurd (List.mem_map_of_mem he) hnot

/-- **Storing all rows again** is accepted, and only the stamps are new. -/
theorem gives_update_again (hr : r.WellTyped) (hkeys : r.KeysDistinct) (t : Time.Clock) :
    ∃ r' t', Gives (r.update r.scan) t (r', r.scan.length) t' ∧ r.Refreshes t r' t' := by
  have hstores : ∀ e ∈ r.scan, List.Forall₂ (fun c v => ∃ w, c.Stores v w) r.schema.columns e.2 :=
    fun e he => (hr.rows e he).imp fun _ v hv => ⟨v, hv.stores⟩
  obtain ⟨stored, t', hreplaces⟩ := (exists_replaces_iff (t := t)).2 hstores
  have hchanges := gives_changes_iff.2 ⟨fun e he => List.mem_map_of_mem he, hreplaces⟩
  have hscan : (stored.foldl put r).scan = stored := by
    have hids : (stored.foldl put r).scan.map (·.1) = r.scan.map (·.1) := by
      rw [(scan_update hchanges).1, map_fst_replaced]
    have hall := filter_stored hchanges (.refl _)
    rw [hreplaces.map_keptAt] at hall
    refine (List.filter_eq_self.2 fun e he => ?_).symm.trans hall
    rw [decide_eq_true_iff, ← hids]
    exact List.mem_map_of_mem he
  refine ⟨_, t', gives_update.2 ⟨stored, hchanges, checkUnique_again hr hkeys hreplaces, rfl,
    hreplaces.rows.length_eq⟩, schema_putAll, counters_putAll.1, counters_putAll.2, ?_, ?_⟩
  · rw [hscan]
    exact hreplaces.keeps hr.rows
  · rw [hscan]
    exact hreplaces.stamps

end Relation

/-! ## Assigning a column to itself -/

namespace Mutation

variable {r : Relation} {s : Schema} {row : Row} {entries : List (Nat × Row)} {t : Time.Clock}
  {i : Nat} {c : Column} {ref : ColumnRef}

/-- A column set to itself is as it was. -/
theorem gives_assign_own (href : ref.resolve s.labels = .ok i) (hi : i < row.length) :
    Gives (assign s row row [(i, .field ref)]) t row t := by
  have hfield : Expression.fieldValue s.labels row ref = .ok row[i] := by
    refine Except.bind_eq_ok.2 ⟨i, href, ?_⟩
    rw [List.getElem?_eq_getElem hi]
    rfl
  have hvalue : Gives (newValue s row i (.field ref)) t row[i] t := gives_ofExcept.2 ⟨hfield, rfl⟩
  exact gives_bind.2 ⟨row[i], t, hvalue, gives_pure.2 ⟨List.set_getElem_self hi, rfl⟩⟩

/-- Every row is found, and none is changed by the assignment. -/
theorem gives_changes_own (href : ref.resolve s.labels = .ok i)
    (hrows : ∀ e ∈ entries, i < e.2.length) :
    Gives (changes s (.constant (.integer 1)) [(i, .field ref)] entries) t entries t := by
  induction entries with
  | nil => exact gives_pure.2 ⟨rfl, rfl⟩
  | cons e entries ih =>
    obtain ⟨he, hrows⟩ := List.forall_mem_cons.1 hrows
    refine gives_bind.2 ⟨true, t, rfl, ?_⟩
    refine gives_bind.2 ⟨e.2, t, gives_assign_own href he, ?_⟩
    exact gives_bind.2 ⟨entries, t, ih hrows, gives_pure.2 ⟨rfl, rfl⟩⟩

/-- **A column that is assigned to itself.** The update is accepted, counts every row, and only the
stamps are new. -/
theorem gives_update_own (hr : r.WellTyped) (hkeys : r.KeysDistinct)
    (hi : r.schema.columns[i]? = some c) (href : ref.resolve r.schema.labels = .ok i)
    (hnumber : c.autoincrement = false) (t : Time.Clock) :
    ∃ r' t', Gives (update r (.constant (.integer 1)) [(c.name, .field ref)]) t
      (r', r.scan.length) t' ∧ r.Refreshes t r' t' := by
  have htargets : targets r.schema [] [(c.name, .field ref)] = .ok [(i, .field ref)] :=
    targets_eq_ok.2
      ⟨.cons ⟨columnIndex_eq hr.schema.names_nodup hi, by simp [hi, hnumber], rfl⟩ .nil,
        List.nodup_singleton _, fun _ _ => List.not_mem_nil⟩
  have hrows : ∀ e ∈ r.scan, i < e.2.length := fun e he =>
    (hr.rows e he).length_eq ▸ (List.getElem?_eq_some_iff.1 hi).1
  have hchanges : Gives (changes r.schema (.constant (.integer 1)) [(i, .field ref)] r.scan) t
      r.scan t := gives_changes_own href hrows
  obtain ⟨r', t', hupdate, hrefreshes⟩ := Relation.gives_update_again hr hkeys t
  exact ⟨r', t', gives_update.2 ⟨_, r.scan, t, htargets, hchanges, hupdate⟩, hrefreshes⟩

end Mutation
end MiniSql
