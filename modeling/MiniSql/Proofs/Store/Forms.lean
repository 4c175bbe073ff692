/-
# The forms of an insert

One insert can be written in several forms. A tuple may name its columns in any order
(`Mutation.concur_insert`); it may leave a column out or give it `DEFAULT`; it may give by position
what it could name in the order of the schema, all columns or those that are not autoincrement
(`Mutation.insert_forms`).

The order matters for values that read the clock, and for which of two errors is reported. So
inserts that differ in it do the same or are both refused, if no value reads the clock. In the other
forms the values stand in the same order, and nothing is asked of them.
-/

import MiniSql.Proofs.Store.Align
import MiniSql.Proofs.Store.Batch

namespace MiniSql

open Timed

namespace Mutation

/-! ## Tuples -/

variable {s : Schema} {columns columns' : List String} {c : Column} {tuple tuple' : List Expression}

/-- The slots of one tuple. -/
def aligned (s : Schema) (columns : List String) (tuple : List Expression) :
    Timed (List (Option Value)) := do
  let values ← tuple.mapM slot
  Timed.ofExcept (align s columns values)

/-- The slots of rows are aligned row by row. -/
theorem slots_eq (s : Schema) (columns : List String) (tuples : List (List Expression)) :
    slots s columns tuples = tuples.mapM (aligned s columns) := rfl

/-- Columns that align alike give the same slots. -/
theorem aligned_congr (h : ∀ values : List (Option Value), values.length = tuple.length →
      align s columns values = align s columns' values) :
    aligned s columns tuple = aligned s columns' tuple :=
  bind_congr_of_gives fun _ values _ hvalues => by rw [h values hvalues.mapM.length_eq.symm]

/-- **A column that is given `DEFAULT`** may as well be left out. -/
theorem aligned_default (hs : (s.columns.map (·.name)).Nodup) (hc : c ∈ s.columns)
    (hne : columns ++ columns' ≠ []) (h : c.name ∉ columns ++ columns')
    (hlength : columns.length = tuple.length) (hlength' : columns'.length = tuple'.length) :
    aligned s (columns ++ c.name :: columns') (tuple ++ .default :: tuple') =
      aligned s (columns ++ columns') (tuple ++ tuple') := by
  have hdefault : slot .default = pure none := rfl
  simp only [aligned, List.mapM_append, List.mapM_cons, hdefault, bind_assoc, pure_bind]
  refine bind_congr_of_gives fun _ values _ hvalues => ?_
  refine bind_congr_of_gives fun _ values' _ hvalues' => ?_
  rw [align_default hs hc hne h (hlength.trans hvalues.mapM.length_eq)
    (hlength'.trans hvalues'.mapM.length_eq)]

/-- The same names and values stand together, in any order. -/
structure Rearranged {α : Type} (columns columns' : List String) (tuple tuple' : List α) :
    Prop where
  width : columns.length = tuple.length
  width' : columns'.length = tuple'.length
  perm : (columns'.zip tuple').Perm (columns.zip tuple)

/-- Rearranging can be undone. -/
theorem Rearranged.symm {α : Type} {tuple tuple' : List α}
    (h : Rearranged columns columns' tuple tuple') : Rearranged columns' columns tuple' tuple :=
  ⟨h.width', h.width, h.perm.symm⟩

/-- The values are the same in another order. -/
theorem Rearranged.tuples {α : Type} {tuple tuple' : List α}
    (h : Rearranged columns columns' tuple tuple') : tuple'.Perm tuple := by
  have hperm := h.perm.map Prod.snd
  rwa [List.map_snd_zip h.width.ge, List.map_snd_zip h.width'.ge] at hperm

/-- A pass over values that stand with names. -/
theorem mapM_zip {α β : Type} {f : α → Except Error β} {tuple : List α}
    (h : columns.length = tuple.length) :
    (columns.zip tuple).mapM (fun p => (p.1, ·) <$> f p.2) = (columns.zip ·) <$> tuple.mapM f := by
  induction columns generalizing tuple with
  | nil =>
    rw [List.length_eq_zero_iff.1 h.symm]
    rfl
  | cons name columns ih =>
    cases tuple with
    | nil => cases h
    | cons a tuple =>
      rw [List.zip_cons_cons, List.mapM_cons, List.mapM_cons, ih (Nat.succ.inj h)]
      cases f a with
      | error e => rfl
      | ok b => cases tuple.mapM f <;> rfl

/-- What the values come to stands with the same names. -/
theorem Rearranged.mapM {α β : Type} {f : α → Except Error β} {tuple tuple' : List α}
    {values : List β} (h : Rearranged columns columns' tuple tuple')
    (hvalues : tuple.mapM f = .ok values) :
    ∃ values', tuple'.mapM f = .ok values' ∧ Rearranged columns columns' values values' := by
  have hzip := mapM_zip (f := f) h.width
  rw [hvalues] at hzip
  obtain ⟨pairs, hpairs, hperm⟩ := Except.mapM_perm h.perm hzip
  rw [mapM_zip h.width'] at hpairs
  cases hvalues' : tuple'.mapM f with
  | error e =>
    rw [hvalues'] at hpairs
    cases hpairs
  | ok values' =>
    rw [hvalues'] at hpairs
    cases hpairs
    exact ⟨values', rfl, h.width.trans (Except.mapM_eq_ok.1 hvalues).length_eq,
      h.width'.trans (Except.mapM_eq_ok.1 hvalues').length_eq, hperm⟩

/-- **Tuples with the values in another order** are aligned as the same row, or refused too. -/
theorem concur_aligned (h : Rearranged columns columns' tuple tuple')
    (huntimed : ∀ e ∈ tuple, e.readsClock = false) :
    Timed.Concur (aligned s columns' tuple') (aligned s columns tuple) := by
  let value (e : Expression) : Except Error (Option Value) := ((slot e).run.run ⟨0, []⟩).1
  have haligned {columns : List String} {tuple : List Expression}
      (huntimed : ∀ e ∈ tuple, e.readsClock = false) :
      aligned s columns tuple = Timed.ofExcept (tuple.mapM value >>= align s columns) := by
    rw [aligned, mapM_ofExcept fun e he => (slot_timeless (huntimed e he)).eq_ofExcept]
    show Timed.ofExcept (tuple.mapM value) >>= _ = _
    cases tuple.mapM value <;> rfl
  have hgives {columns columns' : List String} {tuple tuple' : List Expression}
      {row : List (Option Value)} (h : Rearranged columns columns' tuple tuple')
      (hrow : (tuple.mapM value >>= align s columns) = .ok row) :
      (tuple'.mapM value >>= align s columns') = .ok row := by
    obtain ⟨values, hvalues, hrow⟩ := Except.bind_eq_ok.1 hrow
    obtain ⟨values', hvalues', h⟩ := h.mapM hvalues
    exact Except.bind_eq_ok.2 ⟨values', hvalues', (align_perm h.width h.width' h.perm row).2 hrow⟩
  rw [haligned huntimed, haligned fun e he => huntimed e (h.tuples.mem_iff.1 he)]
  exact .ofExcept fun row => ⟨hgives h.symm, hgives h⟩

/-! ## Inserts -/

variable {r : Relation} {tuples tuples' : List (List Expression)}

/-- **Inserts that name their columns in different orders** do the same, or both are refused. -/
theorem concur_insert (h : List.Forall₂ (Rearranged columns columns') tuples tuples')
    (huntimed : Untimed tuples) :
    Timed.Concur (insert r columns' tuples') (insert r columns tuples) := by
  have hslots : Timed.Concur (slots r.schema columns' tuples') (slots r.schema columns tuples) := by
    rw [slots_eq, slots_eq]
    refine .mapM (List.Forall₂.flip ?_)
    refine ((List.forall₂_and_left _ _).2 ⟨huntimed, h⟩).imp ?_
    exact fun _ _ h => concur_aligned h.2 h.1
  exact hslots.bind fun _ => .refl _

end Mutation

/-- Two forms of one insert, where `d` is `DEFAULT`. -/
inductive Schema.Forms {α : Type} (s : Schema) (d : α) :
    List String → List (List α) → List String → List (List α) → Prop
  /-- A column that every tuple gives `DEFAULT` is left out. -/
  | default {columns columns' : List String} {c : Column} {tuples : List (List α × List α)}
      (hc : c ∈ s.columns) (hne : columns ++ columns' ≠ []) (h : c.name ∉ columns ++ columns')
      (hwidth : ∀ p ∈ tuples, columns.length = p.1.length ∧ columns'.length = p.2.length) :
      Forms s d (columns ++ c.name :: columns') (tuples.map fun p => p.1 ++ d :: p.2)
        (columns ++ columns') (tuples.map fun p => p.1 ++ p.2)
  /-- All columns are named in the order of the schema, or given by position. -/
  | all {tuples : List (List α)} (hwidth : ∀ tuple ∈ tuples, tuple.length = s.width) :
      Forms s d (s.columns.map (·.name)) tuples [] tuples
  /-- The columns that are not autoincrement are named in the order of the schema, or given by
  position. -/
  | short {tuples : List (List α)} (hauto : 0 < s.columns.countP (·.autoincrement))
      (hwidth : ∀ tuple ∈ tuples,
        tuple.length = (s.columns.filter fun c => !c.autoincrement).length) :
      Forms s d ((s.columns.filter fun c => !c.autoincrement).map (·.name)) tuples [] tuples

/-- **The forms of an insert do the same**, or are refused for the same reason. -/
theorem Mutation.insert_forms {r : Relation} {columns columns' : List String}
    {tuples tuples' : List (List Expression)} (hs : (r.schema.columns.map (·.name)).Nodup)
    (hne : r.schema.columns ≠ [])
    (h : r.schema.Forms .default columns tuples columns' tuples') :
    insert r columns tuples = insert r columns' tuples' := by
  have hslots : slots r.schema columns tuples = slots r.schema columns' tuples' := by
    rw [slots_eq, slots_eq]
    cases h with
    | default hc hnamed h hwidth =>
      rw [List.mapM_map, List.mapM_map]
      refine mapM_congr fun p hp => ?_
      exact aligned_default hs hc hnamed h (hwidth p hp).1 (hwidth p hp).2
    | all hwidth =>
      refine mapM_congr fun tuple htuple => aligned_congr fun values hvalues => ?_
      exact align_all hs hne (hvalues.trans (hwidth tuple htuple))
    | short hauto hwidth =>
      refine mapM_congr fun tuple htuple => aligned_congr fun values hvalues => ?_
      exact align_short hs hauto (hvalues.trans (hwidth tuple htuple))
  rw [insert, insert, hslots]

end MiniSql
