/-
# Where rows stand

A pass meets the rows of a relation in the order of their ids. What a change does to this pass is
said by one equation for each change:

| change | pass over the rows |
| --- | --- |
| insert | the old rows, and behind them the new ones under the next ids |
| update | the old rows, each replaced if it is changed |
| delete | the old rows without those deleted |
| truncate | no rows |
-/

import MiniSql.Proofs.Store.Change

namespace MiniSql

namespace SortedMap

variable {α : Type} {m : SortedMap Nat α} {k : Nat} {a : α}

/-- The key of an entry is contained. -/
theorem contains_of_mem {e : Nat × α} (h : e ∈ m.entries) : m.contains e.1 = true := by
  rw [contains, mem_entries_iff.1 h]
  rfl

/-- A key that is contained has an entry. -/
theorem exists_mem_of_contains (h : m.contains k = true) : ∃ a, (k, a) ∈ m.entries := by
  obtain ⟨a, ha⟩ := Option.isSome_iff_exists.1 h
  exact ⟨a, mem_entries_of_get? ha⟩

/-- An entry for a key above all others stands last. -/
theorem entries_insert_last (h : ∀ e ∈ m.entries, e.1 < k) :
    (m.insert k a).entries = m.entries ++ [(k, a)] := by
  have hlast : ∀ es : List (Nat × α), (∀ e ∈ es, e.1 < k) →
      insertSorted k a es = es ++ [(k, a)] := by
    intro es h
    induction es with
    | nil => rfl
    | cons e es ih =>
      obtain ⟨he, h⟩ := List.forall_mem_cons.1 h
      rw [insertSorted, if_neg (by omega), if_neg (by omega), ih h, List.cons_append]
  exact hlast m.entries h

/-- An entry for a key that is there stands in the place of the old one. -/
theorem entries_insert_of_contains (h : m.contains k = true) :
    (m.insert k a).entries = m.entries.map fun e => if e.1 = k then (k, a) else e := by
  have hplace : ∀ es : List (Nat × α), (es.Pairwise fun a b => a.1 < b.1) → (∃ e ∈ es, e.1 = k) →
      insertSorted k a es = es.map fun e => if e.1 = k then (k, a) else e := by
    intro es hsorted hmem
    induction es with
    | nil => simp at hmem
    | cons e es ih =>
      obtain ⟨hfirst, hsorted⟩ := List.pairwise_cons.1 hsorted
      rw [insertSorted, List.map_cons]
      by_cases he : e.1 = k
      · have hrest : (es.map fun e => if e.1 = k then (k, a) else e) = es.map id := by
          refine List.map_congr_left fun d hd => ?_
          have hlt := hfirst d hd
          rw [if_neg (by omega), id]
        rw [if_neg (by omega), if_pos he, if_pos he, hrest, List.map_id]
      · have hlater : ∃ d ∈ es, d.1 = k := by
          obtain ⟨d, hd, hk⟩ := hmem
          rcases List.mem_cons.1 hd with rfl | hd
          · exact absurd hk he
          · exact ⟨d, hd, hk⟩
        obtain ⟨d, hd, hk⟩ := hlater
        have hlt := hfirst d hd
        rw [if_neg (by omega), if_neg he, if_neg he, ih hsorted ⟨d, hd, hk⟩]
  obtain ⟨b, hb⟩ := exists_mem_of_contains h
  exact hplace m.entries m.sorted ⟨(k, b), hb, rfl⟩

end SortedMap

namespace Relation

open Timed

variable {r : Relation} {ids : List Nat}

/-- No id stands twice. -/
theorem nodup_ids : (r.scan.map (·.1)).Nodup :=
  List.Pairwise.map _ (fun _ _ h => Nat.ne_of_lt h) (r.rows.map Record.decode).sorted

/-- The ids that have records are those of the rows that are read. -/
theorem contains_iff {id : Nat} : r.rows.contains id = true ↔ id ∈ r.scan.map (·.1) := by
  rw [← SortedMap.contains_map (f := Record.decode)]
  constructor
  · intro h
    obtain ⟨row, hrow⟩ := SortedMap.exists_mem_of_contains h
    exact List.mem_map.2 ⟨(id, row), hrow, rfl⟩
  · intro h
    obtain ⟨e, he, rfl⟩ := List.mem_map.1 h
    exact SortedMap.contains_of_mem he

/-- A row that is scanned has its key. -/
theorem contains_of_mem_scan {e : Nat × Row} (h : e ∈ r.scan) : r.rows.contains e.1 = true :=
  contains_iff.2 (List.mem_map_of_mem h)

/-! ## Insert -/

/-- Rows that are pushed stand behind all others. -/
theorem scan_pushAll {rows : List Row} (hr : ∀ e ∈ r.scan, e.1 < r.nextId) :
    (rows.foldl push r).scan =
      r.scan ++ ((rows.map Record.kept).zipIdx r.nextId).map Prod.swap := by
  induction rows generalizing r with
  | nil => simp
  | cons row rows ih =>
    have hpush : (r.push row).scan = r.scan ++ [(r.nextId, Record.kept row)] := by
      rw [scan, decode_push]
      exact SortedMap.entries_insert_last hr
    have hids : ∀ e ∈ (r.push row).scan, e.1 < (r.push row).nextId := by
      intro e he
      show e.1 < r.nextId + 1
      rw [hpush] at he
      rcases List.mem_append.1 he with he | he
      · exact Nat.lt_succ_of_lt (hr e he)
      · obtain rfl := List.mem_singleton.1 he
        exact Nat.lt_succ_self _
    rw [List.foldl_cons, ih hids, hpush, List.append_assoc, List.map_cons, List.zipIdx_cons,
      List.map_cons]
    rfl

/-! ## Update -/

/-- An entry, or the last of the changed ones that has its id. -/
def replaced (changed : List (Nat × Row)) (e : Nat × Row) : Nat × Row :=
  changed.foldl (fun e d => if e.1 = d.1 then d else e) e

/-- A row that is replaced has its key as before. -/
@[simp] theorem fst_replaced (changed : List (Nat × Row)) (e : Nat × Row) :
    (replaced changed e).1 = e.1 := by
  induction changed generalizing e with
  | nil => rfl
  | cons d changed ih =>
    show (replaced changed (if e.1 = d.1 then d else e)).1 = e.1
    rw [ih]
    split
    · exact Eq.symm (by assumption)
    · rfl

/-- Replacing rows changes no keys. -/
theorem map_fst_replaced (changed entries : List (Nat × Row)) :
    (entries.map (replaced changed)).map (·.1) = entries.map (·.1) := by
  rw [List.map_map]
  exact List.map_congr_left fun e _ => fst_replaced changed e

/-- An entry is replaced by a changed one of its id, or it stays. -/
theorem replaced_cases (changed : List (Nat × Row)) (e : Nat × Row) :
    replaced changed e ∈ changed ∨ replaced changed e = e ∧ e.1 ∉ changed.map (·.1) := by
  induction changed generalizing e with
  | nil => exact .inr ⟨rfl, List.not_mem_nil⟩
  | cons d changed ih =>
    rw [List.map_cons, List.mem_cons, List.mem_cons, not_or, or_assoc]
    show replaced changed (if e.1 = d.1 then d else e) = d ∨
      replaced changed (if e.1 = d.1 then d else e) ∈ changed ∨
        replaced changed (if e.1 = d.1 then d else e) = e ∧ ¬e.1 = d.1 ∧ e.1 ∉ changed.map (·.1)
    by_cases he : e.1 = d.1
    · rw [if_pos he]
      rcases ih d with h | ⟨h, -⟩
      · exact .inr (.inl h)
      · exact .inl h
    · rw [if_neg he]
      rcases ih e with h | ⟨h, hid⟩
      · exact .inr (.inl h)
      · exact .inr (.inr ⟨h, he, hid⟩)

/-- Rows that are put in their places keep all ids and their order. -/
theorem scan_putAll {changed : List (Nat × Row)} (h : ∀ d ∈ changed, r.rows.contains d.1 = true) :
    (changed.foldl put r).scan = r.scan.map (replaced (changed.map keptAt)) := by
  induction changed generalizing r with
  | nil => exact (List.map_id' r.scan).symm
  | cons d changed ih =>
    obtain ⟨hd, h⟩ := List.forall_mem_cons.1 h
    have hkeep : ∀ d' ∈ changed, (r.put d).rows.contains d'.1 = true := by
      intro d' hd'
      show (r.rows.insert d.1 (.encode d.2)).contains d'.1 = true
      rw [SortedMap.contains, SortedMap.get?_insert]
      split
      · rfl
      · exact h d' hd'
    have hput : (r.put d).scan = r.scan.map fun e => if e.1 = d.1 then keptAt d else e := by
      rw [scan, decode_put]
      exact SortedMap.entries_insert_of_contains ((SortedMap.contains_map d.1).trans hd)
    rw [List.foldl_cons, ih hkeep, hput, List.map_map]
    rfl

/-- Keeping rows changes no keys. -/
theorem map_fst_keptAt (changed : List (Nat × Row)) :
    (changed.map keptAt).map (·.1) = changed.map (·.1) := List.map_map

/-- Changed rows stand in the places of their ids. -/
theorem scan_update {changes changed : List (Nat × Row)} {t t' : Time.Clock}
    (h : Gives (changes.mapM fun e => r.change e.1 e.2) t changed t') :
    (changed.foldl put r).scan = r.scan.map (replaced (changed.map keptAt)) ∧
      changed.map (·.1) = changes.map (·.1) := by
  constructor
  · refine scan_putAll fun d hd => ?_
    obtain ⟨e, -, _, _, hchange⟩ := exists_mem_of_forall₂ h.mapM hd
    obtain ⟨hid, _, _, _, _, rfl⟩ := gives_change.1 hchange
    exact hid
  · have hids := h.mapM
    clear h
    induction hids with
    | nil => rfl
    | cons hchange _ ih =>
      obtain ⟨_, _, hchange⟩ := hchange
      obtain ⟨-, _, _, _, _, rfl⟩ := gives_change.1 hchange
      rw [List.map_cons, List.map_cons, ih]

/-! ## Delete -/

/-- **Deleted rows** are no longer scanned, and the others are as before. -/
theorem scan_delete : (r.delete ids).1.scan = r.scan.filter fun e => e.1 ∉ ids := by
  induction ids generalizing r with
  | nil => simp [delete]
  | cons id ids ih =>
    unfold delete
    split
    · show ((Relation.delete _ ids).1).scan = _
      have herase : ({ r with rows := r.rows.erase id } : Relation).scan =
          r.scan.filter fun e => e.1 ≠ id := by
        rw [scan, SortedMap.map_erase]
        rfl
      rw [ih, herase, List.filter_filter]
      refine List.filter_congr fun e _ => ?_
      simp [Bool.and_comm]
    · rename_i hid
      rw [ih]
      refine List.filter_congr fun e he => ?_
      have hne : e.1 ≠ id := by
        rintro rfl
        exact hid (contains_of_mem_scan he)
      simp [hne]

/-- Ids of stored rows are all deleted. -/
theorem snd_delete (hnodup : ids.Nodup) (h : ∀ id ∈ ids, r.rows.contains id = true) :
    (r.delete ids).2 = ids.length := by
  induction ids generalizing r with
  | nil => rfl
  | cons id ids ih =>
    obtain ⟨hnew, hnodup⟩ := List.nodup_cons.1 hnodup
    obtain ⟨hid, h⟩ := List.forall_mem_cons.1 h
    have hkeep : ∀ id' ∈ ids, (r.rows.erase id).contains id' = true := by
      intro id' hid'
      have hne : id ≠ id' := by
        rintro rfl
        exact hnew hid'
      rw [SortedMap.contains, SortedMap.get?_erase, if_neg hne]
      exact h id' hid'
    unfold delete
    rw [if_pos hid]
    show (Relation.delete { r with rows := r.rows.erase id } ids).2 + 1 = _
    rw [ih hnodup hkeep, List.length_cons]

/-- A delete leaves the counters. -/
theorem counters_delete : (r.delete ids).1.nextId = r.nextId ∧
    (r.delete ids).1.nextNumber = r.nextNumber := by
  induction ids generalizing r with
  | nil => exact ⟨rfl, rfl⟩
  | cons id ids ih =>
    unfold delete
    split
    · exact ih
    · exact ih

end Relation
end MiniSql
