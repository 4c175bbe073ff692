/-
# The keys of stored rows

The rows of a relation with a primary key have different values there (`Relation.KeysDistinct`).
An insert and an update check the keys of the new rows against each other and against the rows
that stay, so each change keeps them different, also an update that moves keys from row to row.

Different means here that the values are not identical, as they are read back: the check compares
bytes, which are the same for values that are kept as the same one. How that compares with the
equality that predicates use is said by `Value.same_or_zeros`.
-/

import MiniSql.Proofs.Store.Change
import Mathlib.Data.List.Nodup

namespace MiniSql
namespace Relation

open Timed

variable {r r' : Relation} {key : Nat} {rows : List Row}

/-- Rows that agree in the column at a position are one row. -/
def DistinctAt (key : Nat) (entries : List (Nat × Row)) : Prop :=
  ∀ e ∈ entries, ∀ e' ∈ entries, valueAt key e.2 = valueAt key e'.2 → e.1 = e'.1

/-- Rows with one primary key are one row. -/
def KeysDistinct (r : Relation) : Prop :=
  ∀ key, r.schema.primaryKey? = some key → DistinctAt key r.scan

/-! ## The check -/

/-- No value is repeated, by its bytes, if the values are kept as different ones and as none that
has been seen. -/
theorem firstRepeated?_eq_none {seen : List Code} {vs : List Value} :
    firstRepeated? seen vs = none ↔
      (vs.map Value.encode).Nodup ∧ ∀ v ∈ vs, v.encode ∉ seen := by
  induction vs generalizing seen with
  | nil => simp [firstRepeated?]
  | cons v vs ih =>
    rw [firstRepeated?, List.map_cons, List.nodup_cons, List.forall_mem_cons]
    split
    · rename_i hseen
      simp [hseen]
    · rename_i hseen
      rw [ih]
      constructor
      · rintro ⟨hnodup, h⟩
        refine ⟨⟨fun hv => ?_, hnodup⟩, hseen,
          fun w hw hmem => h w hw (List.mem_cons_of_mem _ hmem)⟩
        obtain ⟨w, hw, hsame⟩ := List.mem_map.1 hv
        exact h w hw (hsame ▸ List.mem_cons_self)
      · rintro ⟨⟨hv, hnodup⟩, -, h⟩
        refine ⟨hnodup, fun w hw hmem => ?_⟩
        rcases List.mem_cons.1 hmem with hsame | hmem
        · exact hv (List.mem_map.2 ⟨w, hw, hsame⟩)
        · exact h w hw hmem

/-- Keys have the same bytes where the rows are kept with the same key. -/
theorem encode_valueAt_inj {row row' : Row} :
    (valueAt key row).encode = (valueAt key row').encode ↔
      valueAt key (Record.kept row) = valueAt key (Record.kept row') := by
  rw [Value.encode_inj, Record.valueAt_kept, Record.valueAt_kept]

/-- Keys differ in their bytes where they differ in the rows as they are kept. -/
theorem nodup_encode {rows : List Row} :
    ((rows.map (valueAt key)).map Value.encode).Nodup ↔
      ((rows.map Record.kept).map (valueAt key)).Nodup := by
  rw [List.map_map, List.map_map, List.Nodup, List.Nodup, List.pairwise_map, List.pairwise_map]
  exact ⟨fun h => h.imp fun h heq => h (encode_valueAt_inj.2 heq),
    fun h => h.imp fun h heq => h (encode_valueAt_inj.1 heq)⟩

/-- **The check passes** when the new keys, as they are kept, differ from each other and from those
of the rows that are not replaced. -/
theorem checkUnique_eq_ok {replaced : List Nat} :
    r.checkUnique rows replaced = .ok () ↔
      ∀ key, r.schema.primaryKey? = some key →
        ((rows.map Record.kept).map (valueAt key)).Nodup ∧
          ∀ row ∈ rows.map Record.kept, ∀ e ∈ r.scan, e.1 ∉ replaced →
            valueAt key row ≠ valueAt key e.2 := by
  unfold checkUnique
  split
  · rename_i hkey
    simp [hkey]
  · rename_i key hkey
    simp only [hkey, Option.some.injEq, forall_eq']
    have hsame {row : Row} {e : Nat × Row} (he : e ∈ r.scan) :
        (valueAt key row).encode = (valueAt key e.2).encode ↔
          valueAt key (Record.kept row) = valueAt key e.2 := by
      rw [encode_valueAt_inj, kept_of_mem_scan he]
    have hnone := @firstRepeated?_eq_none
      ((r.scan.filter fun e => e.1 ∉ replaced).map fun e => (valueAt key e.2).encode)
      (rows.map (valueAt key))
    rw [nodup_encode] at hnone
    simp only [List.mem_map, List.mem_filter, decide_eq_true_eq, not_exists, not_and,
      forall_exists_index, and_imp, forall_apply_eq_imp_iff₂] at hnone ⊢
    split
    · rename_i h
      simp only [true_iff]
      obtain ⟨hnodup, hnew⟩ := hnone.1 h
      exact ⟨hnodup, fun row hrow e he hid heq => hnew row hrow e he hid ((hsame he).2 heq).symm⟩
    · rename_i v h
      simp only [reduceCtorEq, false_iff]
      rintro ⟨hnodup, hnew⟩
      have := hnone.2 ⟨hnodup,
        fun row hrow e he hid heq => hnew row hrow e he hid ((hsame he).1 heq.symm)⟩
      rw [h] at this
      cases this

/-! ## Changes -/

/-- Rows with new keys may be pushed. -/
theorem distinctAt_pushAll (hr : DistinctAt key r.scan)
    (hnodup : ((rows.map Record.kept).map (valueAt key)).Nodup)
    (hnew : ∀ row ∈ rows.map Record.kept, ∀ e ∈ r.scan, valueAt key row ≠ valueAt key e.2) :
    DistinctAt key (rows.foldl push r).scan := by
  induction rows generalizing r with
  | nil => exact hr
  | cons row rows ih =>
    rw [List.map_cons, List.map_cons, List.nodup_cons] at hnodup
    obtain ⟨hrow, hnew⟩ := List.forall_mem_cons.1 hnew
    refine ih ?_ hnodup.2 fun row' hrow' e he => ?_
    · intro e he e' he' heq
      rcases mem_scan_push he with rfl | ⟨he, -⟩ <;> rcases mem_scan_push he' with rfl | ⟨he', -⟩
      · rfl
      · exact absurd heq (hrow e' he')
      · exact absurd heq.symm (hrow e he)
      · exact hr e he e' he' heq
    · rcases mem_scan_push he with rfl | ⟨he, -⟩
      · intro heq
        exact hnodup.1 (heq ▸ List.mem_map_of_mem hrow')
      · exact hnew row' hrow' e he

/-- Rows may be changed where the keys differ from each other and from those that stay. -/
theorem distinctAt_putAll {changed : List (Nat × Row)} (hr : DistinctAt key r.scan)
    (hnodup : (((changed.map keptAt).map (·.2)).map (valueAt key)).Nodup)
    (hnew : ∀ d ∈ changed.map keptAt, ∀ e ∈ r.scan, e.1 ∉ changed.map (·.1) →
      valueAt key d.2 ≠ valueAt key e.2) :
    DistinctAt key (changed.foldl put r).scan := by
  intro e he e' he' heq
  rcases mem_scan_putAll he with hd | ⟨he, hid⟩ <;>
    rcases mem_scan_putAll he' with hd' | ⟨he', hid'⟩
  · rw [List.map_map] at hnodup
    rw [List.inj_on_of_nodup_map hnodup hd hd' heq]
  · exact absurd heq (hnew e hd e' he' hid')
  · exact absurd heq.symm (hnew e' hd' e he hid)
  · exact hr e he e' he' heq

/-- The rows that are kept of changed ones. -/
theorem map_snd_keptAt (changed : List (Nat × Row)) :
    (changed.map keptAt).map (·.2) = (changed.map (·.2)).map Record.kept := by
  rw [List.map_map, List.map_map]
  rfl

/-- A new relation has no keys. -/
theorem keysDistinct_new {s : Schema} {start : Int64} : (new s start).KeysDistinct :=
  fun _ _ _ he => nomatch he

/-- **Every change keeps the keys distinct.** -/
theorem KeysDistinct.step (hr : r.KeysDistinct) (h : r.Step r') : r'.KeysDistinct := by
  intro key hkey
  rw [h.schema_eq] at hkey
  have hr := hr key hkey
  cases h with
  | insert h =>
    obtain ⟨rows, n, -, hunique, rfl, -⟩ := gives_insert.1 h
    obtain ⟨hnodup, hnew⟩ := checkUnique_eq_ok.1 hunique key hkey
    exact distinctAt_pushAll hr hnodup fun row hrow e he => hnew row hrow e he List.not_mem_nil
  | update h =>
    obtain ⟨changed, -, hunique, rfl, -⟩ := gives_update.1 h
    obtain ⟨hnodup, hnew⟩ := checkUnique_eq_ok.1 hunique key hkey
    rw [← map_snd_keptAt] at hnodup hnew
    exact distinctAt_putAll hr hnodup fun d hd => hnew d.2 (List.mem_map_of_mem hd)
  | delete ids =>
    exact fun e he e' he' => hr e (mem_scan_of_delete he) e' (mem_scan_of_delete he')
  | truncate => exact fun e he => nomatch he

end Relation
end MiniSql
