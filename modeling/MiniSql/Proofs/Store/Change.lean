/-
# What a statement does to a table

A statement changes a table in one of four ways (`Relation.Step`). For the two that can be refused
`gives_insert` and `gives_update` say when they are not and which relation they leave; the rest of
the development takes a change apart by them.

| change | the rows it leaves |
| --- | --- |
| insert | the old ones, and the new ones under the next ids |
| update | the changed ones, and the old ones of other ids |
| delete | the old ones that are not of the ids given |
| truncate | none |

What is read of a new or a changed row is the row as it is kept (`Record.kept`).
-/

import MiniSql.Proofs.Store.Record
import MiniSql.Proofs.Timed
import MiniSql.Store.Catalog

namespace MiniSql
namespace Relation

open Timed

variable {r r' : Relation} {t t' : Time.Clock}

/-- One change of a table by a statement. -/
inductive Step (r : Relation) : Relation → Prop
  | insert {slots r' stored t t'} (h : Gives (r.insert slots) t (r', stored) t') : Step r r'
  | update {changes r' n t t'} (h : Gives (r.update changes) t (r', n) t') : Step r r'
  | delete (ids : List Nat) : Step r (r.delete ids).1
  | truncate : Step r r.truncate.1

/-- Changes, at any times, have led to the relation from one without rows. -/
inductive Reachable : Relation → Prop
  | new (s : Schema) (start : Int64) : Reachable (.new s start)
  | step {r r' : Relation} (h : Reachable r) (h' : r.Step r') : Reachable r'

/-- A row that is read has been kept already. -/
theorem kept_of_mem_scan {e : Nat × Row} (h : e ∈ r.scan) : Record.kept e.2 = e.2 := by
  obtain ⟨⟨id, record⟩, -, rfl⟩ := List.mem_map.1 h
  exact record.kept_decode

/-- So has what it has in each column. -/
theorem kept_valueAt {e : Nat × Row} (h : e ∈ r.scan) (i : Nat) :
    (valueAt i e.2).kept = valueAt i e.2 := by
  rw [← Record.valueAt_kept, kept_of_mem_scan h]

/-! ## Insert -/

/-- **An insert is given** when its rows can be completed and their keys are new. It pushes them. -/
theorem gives_insert {slots : List (List (Option Value))} {stored : Inserted} :
    Gives (r.insert slots) t (r', stored) t' ↔
      ∃ rows n, Gives (completeRows r.schema slots ⟨r.nextNumber, none⟩) t (rows, n) t' ∧
        r.checkUnique rows [] = .ok () ∧
        r' = { rows.foldl push r with nextNumber := n.next } ∧ stored = ⟨rows, n.last⟩ := by
  unfold insert
  simp only [gives_bind, gives_ofExcept, gives_pure, Prod.exists, Prod.mk.injEq]
  constructor
  · rintro ⟨rows, n, mid, hrows, _, _, ⟨hunique, rfl⟩, ⟨rfl, rfl⟩, rfl⟩
    exact ⟨rows, n, hrows, hunique, rfl, rfl⟩
  · rintro ⟨rows, n, hrows, hunique, rfl, rfl⟩
    exact ⟨rows, n, t', hrows, (), t', ⟨hunique, rfl⟩, ⟨rfl, rfl⟩, rfl⟩

/-- Each row of an insert is completed by itself. -/
theorem completeRows_each {s : Schema} {slots : List (List (Option Value))} {n n' : Numbering}
    {rows : List Row} (h : Gives (completeRows s slots n) t (rows, n') t') :
    List.Forall₂ (fun slot row => ∃ n s₁ n' s₂, Gives (completeRow s slot n) s₁ (row, n') s₂)
      slots rows := by
  induction slots generalizing n t rows t' with
  | nil =>
    obtain ⟨h, -⟩ := gives_pure.1 h
    cases h
    exact .nil
  | cons slot slots ih =>
    simp only [completeRows, gives_bind, Prod.exists] at h
    obtain ⟨row, n₁, mid, hrow, rows, n₂, mid', hrows, h⟩ := h
    obtain ⟨h, -⟩ := gives_pure.1 h
    cases h
    exact .cons ⟨n, t, n₁, mid, hrow⟩ (ih hrows)

/-- What is read after a row is pushed. -/
theorem decode_push (row : Row) : (r.push row).rows.map Record.decode =
    (r.rows.map Record.decode).insert r.nextId (Record.kept row) :=
  SortedMap.map_insert _ _

/-- A row that is scanned after a push is the new one or an old one. -/
theorem mem_scan_push {row : Row} {e : Nat × Row} (h : e ∈ (r.push row).scan) :
    e = (r.nextId, Record.kept row) ∨ e ∈ r.scan ∧ e.1 ≠ r.nextId := by
  rw [scan, decode_push] at h
  exact SortedMap.mem_entries_insert.1 h

/-- Pushing rows leaves the schema. -/
@[simp] theorem schema_pushAll {rows : List Row} : (rows.foldl push r).schema = r.schema := by
  induction rows generalizing r with
  | nil => rfl
  | cons row rows ih => exact ih

/-- Each row that is pushed takes a number. -/
@[simp] theorem nextId_pushAll {rows : List Row} :
    (rows.foldl push r).nextId = r.nextId + rows.length := by
  induction rows generalizing r with
  | nil => rfl
  | cons row rows ih =>
    rw [List.foldl_cons, ih, List.length_cons]
    show r.nextId + 1 + rows.length = _
    omega

/-- A row behind an insert is a new one or stood there before. -/
theorem mem_scan_pushAll {rows : List Row} {e : Nat × Row} (h : e ∈ (rows.foldl push r).scan) :
    e ∈ r.scan ∨ ∃ row ∈ rows, e.2 = Record.kept row := by
  induction rows generalizing r with
  | nil => exact .inl h
  | cons row rows ih =>
    rcases ih h with h | ⟨new, hnew, h⟩
    · rcases mem_scan_push h with rfl | ⟨h, -⟩
      · exact .inr ⟨row, List.mem_cons_self, rfl⟩
      · exact .inl h
    · exact .inr ⟨new, List.mem_cons_of_mem _ hnew, h⟩

/-! ## Update -/

/-- **An update is given** when its rows can be stored and their keys are new among the others. It
puts them in their places. -/
theorem gives_update {changes : List (Nat × Row)} {n : Nat} :
    Gives (r.update changes) t (r', n) t' ↔
      ∃ changed, Gives (changes.mapM fun e => r.change e.1 e.2) t changed t' ∧
        r.checkUnique (changed.map (·.2)) (changed.map (·.1)) = .ok () ∧
        r' = changed.foldl put r ∧ n = changed.length := by
  unfold update
  simp only [gives_bind, gives_ofExcept, gives_pure, Prod.mk.injEq]
  constructor
  · rintro ⟨changed, mid, hchanged, _, _, ⟨hunique, rfl⟩, ⟨rfl, rfl⟩, rfl⟩
    exact ⟨changed, hchanged, hunique, rfl, rfl⟩
  · rintro ⟨changed, hchanged, hunique, rfl, rfl⟩
    exact ⟨changed, t', hchanged, (), t', ⟨hunique, rfl⟩, ⟨rfl, rfl⟩, rfl⟩

/-- **One change is given** for a stored row when the new one can be stored. It is stamped. -/
theorem gives_change {id : Nat} {row : Row} {e : Nat × Row} :
    Gives (r.change id row) t e t' ↔
      r.rows.contains id = true ∧ ∃ prepared stamped, prepare r.schema row = .ok prepared ∧
        Gives (stamp r.schema.columns prepared) t stamped t' ∧ e = (id, stamped) := by
  unfold change
  split
  · rename_i hid
    simp only [gives_bind, gives_ofExcept, gives_pure, hid, true_and]
    constructor
    · rintro ⟨prepared, mid, ⟨hprepared, rfl⟩, stamped, mid', hstamped, rfl, rfl⟩
      exact ⟨prepared, stamped, hprepared, hstamped, rfl⟩
    · rintro ⟨prepared, stamped, hprepared, hstamped, rfl⟩
      exact ⟨prepared, t, ⟨hprepared, rfl⟩, stamped, t', hstamped, rfl, rfl⟩
  · rename_i hid
    simp [hid]

/-- A changed row as it is kept, under its id. -/
def keptAt (e : Nat × Row) : Nat × Row := (e.1, Record.kept e.2)

/-- What is read after a row is put in its place. -/
theorem decode_put (e : Nat × Row) : (r.put e).rows.map Record.decode =
    (r.rows.map Record.decode).insert e.1 (Record.kept e.2) :=
  SortedMap.map_insert _ _

/-- Putting rows leaves the schema. -/
@[simp] theorem schema_putAll {changed : List (Nat × Row)} :
    (changed.foldl put r).schema = r.schema := by
  induction changed generalizing r with
  | nil => rfl
  | cons e changed ih => exact ih

/-- Putting rows leaves both counters. -/
theorem counters_putAll {changed : List (Nat × Row)} :
    (changed.foldl put r).nextId = r.nextId ∧
      (changed.foldl put r).nextNumber = r.nextNumber := by
  induction changed generalizing r with
  | nil => exact ⟨rfl, rfl⟩
  | cons e changed ih => exact ih

/-- A row behind an update is a changed one or stood there before under an id that is not
changed. -/
theorem mem_scan_putAll {changed : List (Nat × Row)} {e : Nat × Row}
    (h : e ∈ (changed.foldl put r).scan) :
    e ∈ changed.map keptAt ∨ e ∈ r.scan ∧ e.1 ∉ changed.map (·.1) := by
  induction changed generalizing r with
  | nil => exact .inr ⟨h, List.not_mem_nil⟩
  | cons d changed ih =>
    rcases ih h with h | ⟨h, hid⟩
    · exact .inl (List.mem_cons_of_mem _ h)
    · rw [scan, decode_put] at h
      rcases SortedMap.mem_entries_insert.1 h with rfl | ⟨h, hne⟩
      · exact .inl List.mem_cons_self
      · refine .inr ⟨h, ?_⟩
        rw [List.map_cons, List.mem_cons, not_or]
        exact ⟨hne, hid⟩

/-! ## Delete -/

/-- Deleting rows leaves the schema. -/
@[simp] theorem schema_delete {ids : List Nat} : (r.delete ids).1.schema = r.schema := by
  induction ids generalizing r with
  | nil => rfl
  | cons id ids ih =>
    unfold delete
    split
    · exact ih
    · exact ih

/-- A row behind a delete stood there before. -/
theorem mem_scan_of_delete {ids : List Nat} {e : Nat × Row} (h : e ∈ (r.delete ids).1.scan) :
    e ∈ r.scan := by
  induction ids generalizing r with
  | nil => exact h
  | cons id ids ih =>
    unfold delete at h
    split at h
    · have h := ih h
      rw [scan, SortedMap.map_erase] at h
      exact (SortedMap.mem_entries_erase.1 h).1
    · exact ih h

/-! ## Any change -/

/-- **No change touches the schema.** -/
theorem Step.schema_eq (h : r.Step r') : r'.schema = r.schema := by
  cases h with
  | insert h =>
    obtain ⟨rows, n, -, -, rfl, -⟩ := gives_insert.1 h
    exact schema_pushAll
  | update h =>
    obtain ⟨changed, -, -, rfl, -⟩ := gives_update.1 h
    exact schema_putAll
  | delete ids => exact schema_delete
  | truncate => rfl

end Relation
end MiniSql
